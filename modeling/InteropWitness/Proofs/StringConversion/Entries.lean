import InteropWitness.Proofs.OrderedMap
import InteropWitness.Proofs.SourceUnit.Identity
import InteropWitness.StringConversion.Pass
import Mathlib.Tactic.SplitIfs

namespace InteropWitness.StringConversion

variable (ctx : Context)

def enter (d : Decl) (store : Store StringVerdict) : Store StringVerdict :=
  match d.kind with
  | .record _ => visitRecord ctx ctx.config.stringTable d store
  | .enumeration _ => visitEnum ctx d store
  | .function _ | .other => store

def opened : Store StringVerdict :=
  ctx.unit.decls.foldl (fun store d => enter ctx d store) .empty

def revisedByRecord (d : Decl) (old : Option StringVerdict) : Option StringVerdict :=
  if d.inLibrary then
    match ctx.import? d.identity with
    | none => old
    | some i =>
      if !i.isImported then some .blockedByImport
      else if i = .nonCopyable then some .nonCopyable
      else
        some ((StringOverride.matching ctx.config.stringTable ctx.unit d).getLast?.getD
          (old.getD .unknown))
  else
    match StringOverride.exactVerdict? ctx.config.stringTable d with
    | some v => some (old.getD v)
    | none => old

/-- What a declaration makes of the entry of its identity. -/
def revised (d : Decl) (old : Option StringVerdict) : Option StringVerdict :=
  match d.kind with
  | .record _ => revisedByRecord ctx d old
  | .enumeration _ =>
    if ctx.inputs.enums.contains d.identity && (ctx.import? d.identity).any (·.isCopyable) then
      some (old.getD .enumCases)
    else old
  | .function _ | .other => old

variable {ctx}

theorem get?_insertNew_self {store : Store StringVerdict} {entity : Identity} {v : StringVerdict} :
    (store.insertNew entity v).get? entity = some ((store.get? entity).getD v) := by
  rw [OrderedMap.get?_insertNew]
  by_cases hk : entity ∈ store.keys
  · obtain ⟨old, hold⟩ := OrderedMap.exists_get?_of_mem hk
    simp [hk, hold]
  · simp [hk, OrderedMap.get?_eq_none_iff.2 hk]

theorem get?_foldl_assign (store : Store StringVerdict) (entity other : Identity)
    (verdicts : List StringVerdict) :
    (verdicts.foldl (fun store v => store.assign entity v) store).get? other =
      if other = entity then verdicts.getLast?.or (store.get? entity) else store.get? other := by
  induction verdicts generalizing store with
  | nil =>
    by_cases ho : other = entity
    · simp [ho]
    · simp [ho]
  | cons v rest ih =>
    rw [List.foldl_cons, ih, OrderedMap.get?_assign, OrderedMap.get?_assign]
    by_cases ho : other = entity
    · cases hlast : rest.getLast? with
      | none => simp [ho, List.getLast?_cons, hlast]
      | some last => simp [ho, List.getLast?_cons, hlast]
    · simp [ho]

theorem get?_visitRecord_of_ne {store : Store StringVerdict} {d : Decl} {entity : Identity}
    (he : entity ≠ d.identity) :
    (visitRecord ctx ctx.config.stringTable d store).get? entity = store.get? entity := by
  unfold visitRecord
  split_ifs
  · cases ctx.import? d.identity with
    | none => rfl
    | some i =>
      simp only
      split_ifs
      · simp [OrderedMap.get?_assign, he]
      · simp [OrderedMap.get?_assign, he]
      · rw [get?_foldl_assign, if_neg he]
        simp [OrderedMap.get?_insertNew, he]
  · cases StringOverride.exactVerdict? ctx.config.stringTable d with
    | none => rfl
    | some v => simp [OrderedMap.get?_insertNew, he]

theorem get?_visitRecord_self (d : Decl) (store : Store StringVerdict) :
    (visitRecord ctx ctx.config.stringTable d store).get? d.identity =
      revisedByRecord ctx d (store.get? d.identity) := by
  unfold visitRecord revisedByRecord
  split_ifs
  · cases ctx.import? d.identity with
    | none => rfl
    | some i =>
      simp only
      split_ifs
      · simp [OrderedMap.get?_assign]
      · simp [OrderedMap.get?_assign]
      · rw [get?_foldl_assign, if_pos rfl, get?_insertNew_self]
        cases (StringOverride.matching ctx.config.stringTable ctx.unit d).getLast? <;> rfl
  · cases StringOverride.exactVerdict? ctx.config.stringTable d with
    | none => rfl
    | some v => exact get?_insertNew_self

theorem get?_visitEnum_of_ne {store : Store StringVerdict} {d : Decl} {entity : Identity}
    (he : entity ≠ d.identity) : (visitEnum ctx d store).get? entity = store.get? entity := by
  unfold visitEnum
  split_ifs
  · simp [OrderedMap.get?_insertNew, he]
  · rfl

theorem get?_enter (d : Decl) (store : Store StringVerdict) (entity : Identity) :
    (enter ctx d store).get? entity =
      if entity = d.identity then revised ctx d (store.get? d.identity) else store.get? entity := by
  by_cases he : entity = d.identity
  · rw [if_pos he, he, enter, revised]
    cases d.kind with
    | record r => exact get?_visitRecord_self d store
    | enumeration e =>
      simp only [visitEnum]
      split_ifs
      · exact get?_insertNew_self
      · rfl
    | function f => rfl
    | other => rfl
  · rw [if_neg he, enter]
    cases d.kind with
    | record r => exact get?_visitRecord_of_ne he
    | enumeration e => exact get?_visitEnum_of_ne he
    | function f => rfl
    | other => rfl

/-- The declarations of other identities leave an entry alone. -/
theorem get?_foldl_enter (decls : List Decl) (store : Store StringVerdict) (entity : Identity) :
    (decls.foldl (fun store d => enter ctx d store) store).get? entity =
      (decls.filter fun d => d.identity = entity).foldl (fun old d => revised ctx d old)
        (store.get? entity) := by
  induction decls generalizing store with
  | nil => rfl
  | cons d rest ih =>
    rw [List.foldl_cons, ih, get?_enter]
    by_cases he : d.identity = entity
    · subst he
      simp
    · rw [if_neg (Ne.symm he), List.filter_cons_of_neg (by simpa using he)]

theorem get?_opened (entity : Identity) :
    (opened ctx).get? entity =
      (ctx.unit.decls.filter fun d => d.identity = entity).foldl (fun old d => revised ctx d old)
        none :=
  get?_foldl_enter ctx.unit.decls .empty entity

theorem keys_prefix_foldl_assign (store : Store StringVerdict) (entity : Identity)
    (verdicts : List StringVerdict) :
    store.keys <+: (verdicts.foldl (fun store v => store.assign entity v) store).keys := by
  induction verdicts generalizing store with
  | nil => exact List.prefix_rfl
  | cons v rest ih => exact (store.keys_prefix_assign entity v).trans (ih _)

theorem keys_prefix_enter (d : Decl) (store : Store StringVerdict) :
    store.keys <+: (enter ctx d store).keys := by
  unfold enter
  split
  · unfold visitRecord
    split
    · cases ctx.import? d.identity with
      | none => exact List.prefix_rfl
      | some i =>
        simp only
        split
        · exact store.keys_prefix_assign d.identity _
        · split
          · exact store.keys_prefix_assign d.identity _
          · exact (store.keys_prefix_insertNew d.identity _).trans
              (keys_prefix_foldl_assign _ d.identity _)
    · cases StringOverride.exactVerdict? ctx.config.stringTable d with
      | none => exact List.prefix_rfl
      | some v => exact store.keys_prefix_insertNew d.identity v
  · unfold visitEnum
    split
    · exact store.keys_prefix_insertNew d.identity _
    · exact List.prefix_rfl
  · exact List.prefix_rfl
  · exact List.prefix_rfl

theorem exists_defining_of_mem_opened {entity : Identity} (h : entity ∈ (opened ctx).keys) :
    ∃ d ∈ ctx.unit.decls, ctx.unit.defining? entity = some d ∧ d.identity = entity := by
  obtain ⟨v, hv⟩ := OrderedMap.exists_get?_of_mem h
  rw [get?_opened] at hv
  cases hdecls : ctx.unit.decls.filter fun d => d.identity = entity with
  | nil => simp [hdecls] at hv
  | cons d rest =>
    have hmem : d ∈ ctx.unit.decls.filter fun d => d.identity = entity := by simp [hdecls]
    obtain ⟨hd, he⟩ := List.mem_filter.1 hmem
    rw [decide_eq_true_eq] at he
    rw [← he]
    exact SourceUnit.exists_defining hd

end InteropWitness.StringConversion

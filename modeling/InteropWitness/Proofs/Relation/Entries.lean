import InteropWitness.Proofs.OrderedMap
import InteropWitness.Proofs.SourceUnit.Identity
import InteropWitness.Relation.Pass
import Mathlib.Data.List.Basic
import Mathlib.Tactic.SplitIfs

namespace InteropWitness

/-- The verdict that an import class settles, or `unknown` if witnesses are to decide. -/
def ImportClass.opening (i : ImportClass) : RelationVerdict :=
  if !i.isImported then .blockedByImport
  else if i = .nonCopyable then .nonCopyable
  else if i.isReference then .importedAsReference
  else .unknown

theorem ImportClass.opening_eq_unknown_iff {i : ImportClass} :
    i.opening = .unknown ↔ i = .value := by
  cases i <;> decide

theorem ImportClass.opening_ne_unavailable (i : ImportClass) : i.opening ≠ .unavailable := by
  cases i <;> decide

theorem ImportClass.opening_ne_blockedByEquality (i : ImportClass) :
    i.opening ≠ .blockedByEquality := by
  cases i <;> decide

/-- The declaration is a record or enum of the library with an import class. -/
def Inputs.reports (inputs : Inputs) (d : Decl) : Bool :=
  d.tagType?.isSome && d.inLibrary && inputs.imports.contains d.identity

/-- The identity of a record or enum that is declared in the library. -/
def SourceUnit.Reports (u : SourceUnit) (entity : Identity) : Prop :=
  ∃ d ∈ u.decls, d.tagType?.isSome = true ∧ d.inLibrary = true ∧ d.identity = entity

namespace Relation

variable (ctx : Context)

/-- What the traversal makes of the entries when it comes by a declaration. -/
def enter (d : Decl) (store : Store RelationVerdict) : Store RelationVerdict :=
  if d.tagType?.isSome then visitTag ctx d store else store

def opened : Store RelationVerdict :=
  ctx.unit.decls.foldl (fun store d => enter ctx d store) .empty

/-- Every entry has the value that the import class of its key opens it with. -/
def Fits (store : Store RelationVerdict) : Prop :=
  ∀ entity v, store.get? entity = some v → (ctx.import? entity).map ImportClass.opening = some v

variable {ctx} {store : Store RelationVerdict}

theorem get?_visitTag_of_ne {d : Decl} {entity : Identity} (he : entity ≠ d.identity) :
    (visitTag ctx d store).get? entity = store.get? entity := by
  unfold visitTag
  split_ifs
  · cases ctx.import? d.identity with
    | none => rfl
    | some i =>
      simp only
      split_ifs <;> simp [OrderedMap.get?_assign, OrderedMap.get?_insertNew, he]
  · rfl

theorem get?_visitTag_self (h : Fits ctx store) {d : Decl} (hlib : d.inLibrary = true) :
    (visitTag ctx d store).get? d.identity =
      (ctx.import? d.identity).map ImportClass.opening := by
  unfold visitTag
  rw [if_pos hlib]
  cases hi : ctx.import? d.identity with
  | none =>
    cases hv : store.get? d.identity with
    | none => rfl
    | some v =>
      have hfit := h _ v hv
      rw [hi] at hfit
      cases hfit
  | some i =>
    simp only [Option.map_some, ImportClass.opening]
    split_ifs with h1 h2 h3
    · simp [OrderedMap.get?_assign]
    · simp [OrderedMap.get?_assign]
    · simp [OrderedMap.get?_assign]
    · rw [OrderedMap.get?_insertNew]
      by_cases hk : d.identity ∈ store.keys
      · obtain ⟨v, hv⟩ := OrderedMap.exists_get?_of_mem hk
        have hfit := h _ v hv
        rw [hi, Option.map_some, ImportClass.opening, if_neg h1, if_neg h2, if_neg h3] at hfit
        simp [hk, hv, hfit]
      · simp [hk]

theorem get?_enter (h : Fits ctx store) (d : Decl) (entity : Identity) :
    (enter ctx d store).get? entity =
      if d.tagType?.isSome = true ∧ d.inLibrary = true ∧ d.identity = entity then
        (ctx.import? entity).map ImportClass.opening
      else store.get? entity := by
  unfold enter
  split_ifs with ht hd hd
  · obtain ⟨_, hlib, rfl⟩ := hd
    exact get?_visitTag_self h hlib
  · by_cases hlib : d.inLibrary = true
    · exact get?_visitTag_of_ne fun he => hd ⟨ht, hlib, he.symm⟩
    · rw [visitTag, if_neg hlib]
  · exact absurd hd.1 ht
  · rfl

theorem Fits.enter (h : Fits ctx store) (d : Decl) : Fits ctx (enter ctx d store) := by
  intro entity v hv
  rw [get?_enter h] at hv
  split at hv
  · exact hv
  · exact h entity v hv

theorem get?_foldl_enter_iff {decls : List Decl} (h : Fits ctx store) {entity : Identity}
    {v : RelationVerdict} :
    (decls.foldl (fun store d => enter ctx d store) store).get? entity = some v ↔
      store.get? entity = some v ∨
        (∃ d ∈ decls, d.tagType?.isSome = true ∧ d.inLibrary = true ∧ d.identity = entity) ∧
          (ctx.import? entity).map ImportClass.opening = some v := by
  induction decls generalizing store with
  | nil => simp
  | cons d rest ih =>
    rw [List.foldl_cons, ih (h.enter d), get?_enter h, List.exists_mem_cons_iff]
    by_cases hd : d.tagType?.isSome = true ∧ d.inLibrary = true ∧ d.identity = entity
    · rw [if_pos hd]
      constructor
      · intro h
        rcases h with hv | ⟨_, hv⟩
        · exact Or.inr ⟨Or.inl hd, hv⟩
        · exact Or.inr ⟨Or.inl hd, hv⟩
      · intro hentry
        rcases hentry with hv | ⟨_, hv⟩
        · exact Or.inl (h entity v hv)
        · exact Or.inl hv
    · rw [if_neg hd]
      simp only [hd, false_or]

/-- The entries are those of the identities that the unit reports and that have an import class. -/
theorem get?_opened_iff {entity : Identity} {v : RelationVerdict} :
    (opened ctx).get? entity = some v ↔
      ctx.unit.Reports entity ∧ (ctx.import? entity).map ImportClass.opening = some v := by
  have hempty : Fits ctx .empty := by
    intro entity v hv
    cases hv
  rw [opened, get?_foldl_enter_iff hempty]
  simp [SourceUnit.Reports]

theorem keys_visitTag {d : Decl} {i : ImportClass} (hlib : d.inLibrary = true)
    (hi : ctx.import? d.identity = some i) (store : Store RelationVerdict) :
    (visitTag ctx d store).keys =
      if d.identity ∈ store.keys then store.keys else store.keys ++ [d.identity] := by
  rw [visitTag, if_pos hlib, hi]
  simp only
  split
  · exact OrderedMap.keys_assign store d.identity .blockedByImport
  · split
    · exact OrderedMap.keys_assign store d.identity .nonCopyable
    · split
      · exact OrderedMap.keys_assign store d.identity .importedAsReference
      · exact OrderedMap.keys_insertNew store d.identity .unknown

theorem keys_enter (d : Decl) (store : Store RelationVerdict) :
    (enter ctx d store).keys =
      if ctx.inputs.reports d then
        if d.identity ∈ store.keys then store.keys else store.keys ++ [d.identity]
      else store.keys := by
  have hcontains : ctx.inputs.imports.contains d.identity = (ctx.import? d.identity).isSome := rfl
  rw [enter, Inputs.reports, hcontains]
  by_cases ht : d.tagType?.isSome = true
  · by_cases hlib : d.inLibrary = true
    · cases hi : ctx.import? d.identity with
      | none => simp [ht, hlib, visitTag, hi]
      | some i => simp [ht, hlib, keys_visitTag hlib hi store]
    · simp [ht, hlib, visitTag]
  · simp [ht]

/-- The entries stand in the order in which the traversal comes by their first declarations. -/
theorem keys_opened : (opened ctx).keys =
    ((ctx.unit.decls.filter ctx.inputs.reports).map (·.identity)).eraseDups := by
  have hnew : ∀ key : Identity, decide (key ∉ (OrderedMap.empty : Store RelationVerdict).keys) =
      true := fun _ => rfl
  rw [opened, OrderedMap.keys_foldl fun store d => keys_enter d store]
  simp only [hnew, List.filter_true]
  rfl

theorem exists_defining_of_mem_opened {entity : Identity} (h : entity ∈ (opened ctx).keys) :
    ∃ d ∈ ctx.unit.decls, ctx.unit.defining? entity = some d ∧ d.identity = entity := by
  obtain ⟨v, hv⟩ := OrderedMap.exists_get?_of_mem h
  obtain ⟨⟨d, hd, _, _, rfl⟩, _⟩ := get?_opened_iff.1 hv
  exact SourceUnit.exists_defining hd

end Relation

end InteropWitness

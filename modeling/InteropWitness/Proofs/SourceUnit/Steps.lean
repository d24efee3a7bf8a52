import InteropWitness.Proofs.SourceUnit.Builder
import Mathlib.Data.List.Induction

namespace InteropWitness.SourceUnit

theorem concat_prefix_concat_iff {α : Type} {before items : List α} {a b : α} :
    before ++ [a] <+: items ++ [b] ↔ (before = items ∧ a = b) ∨ before ++ [a] <+: items := by
  rw [List.prefix_concat_iff, List.append_singleton_inj]

namespace Step

/-- The types that the step puts into the table, unless they are there. -/
def registers : Step → List TypeKey
  | .builtin ty _ | .dependent ty | .plainType ty => [ty]
  | .record name spec selfTypes => name :: (selfTypes ++ spec.selfType?.toList)
  | .enumeration name _ _ => [name]
  | .function _ _ | .other _ _ | .redeclare _ => []

/-- The types that a declared record or function refers to, apart from those it registers. -/
def references : Step → List TypeKey
  | .record _ spec _ =>
    spec.bases.map (·.ty) ++ spec.conversions.map (·.target.ty) ++
      (spec.specialization.map (·.args)).getD []
  | .function _ spec =>
    spec.decl.params.map (·.ty) ++ spec.decl.returnType.ty ::
      (spec.decl.method.map (·.parent)).toList
  | .builtin _ _ | .dependent _ | .plainType _ | .enumeration _ _ _ | .other _ _
  | .redeclare _ => []

theorem references_of_not_declares {step : Step} (h : step.declares = false) :
    step.references = [] := by
  cases step with
  | builtin _ _ | dependent _ | plainType _ => rfl
  | record _ _ _ | enumeration _ _ _ | function _ _ | other _ _ | redeclare _ => cases h

end Step

open Builder

variable {steps : List Step}

section Positions

theorem getElem?_after_of_prefix {before : List Step} (h : before <+: steps) {i : Nat} {d : Decl}
    (hd : (after before).decls[i]? = some d) : (after steps).decls[i]? = some d := by
  obtain ⟨rest, rfl⟩ := h
  obtain ⟨added, hadded⟩ := (after before).decls_prefix_foldl rest
  rw [after, List.foldl_append, ← after, ← hadded]
  exact getElem?_append_of_some hd

theorem length_decls_after (steps : List Step) :
    (after steps).decls.length = steps.countP Step.declares := by
  induction steps using List.reverseRecOn with
  | nil => rfl
  | append_singleton steps step ih =>
    rw [after_concat, List.countP_append, List.countP_singleton, ← ih]
    rcases (after steps).decls_apply step with ⟨hfalse, hsame⟩ | ⟨htrue, d, _, hadd⟩
    · rw [hsame, if_neg (by simp [hfalse]), Nat.add_zero]
    · rw [hadd, if_pos htrue, List.length_append, List.length_singleton]

/-- Every declaration has been added by a step, at the position that was next. -/
theorem exists_step_of_getElem? {i : Nat} {d : Decl} (h : (after steps).decls[i]? = some d) :
    ∃ before step, before ++ [step] <+: steps ∧ step.declares = true ∧
      (after before).decls.length = i ∧ (after before).Adds step d := by
  induction steps using List.reverseRecOn with
  | nil => cases h
  | append_singleton steps step ih =>
    rw [after_concat] at h
    have hearlier : (after steps).decls[i]? = some d → ∃ before s,
        before ++ [s] <+: steps ++ [step] ∧ s.declares = true ∧
          (after before).decls.length = i ∧ (after before).Adds s d := by
      intro hold
      obtain ⟨before, s, hprefix, hs⟩ := ih hold
      exact ⟨before, s, hprefix.trans (List.prefix_append steps [step]), hs⟩
    rcases (after steps).decls_apply step with ⟨_, hsame⟩ | ⟨hdeclares, e, hadds, hadd⟩
    · rw [hsame] at h
      exact hearlier h
    · rw [hadd, List.getElem?_append] at h
      split at h
      · exact hearlier h
      · next hnew =>
        rw [List.getElem?_singleton] at h
        split at h
        · next hlast =>
          cases h
          exact ⟨steps, step, List.prefix_rfl, hdeclares, by omega, hadds⟩
        · cases h

theorem exists_getElem?_of_step {before : List Step} {step : Step}
    (h : before ++ [step] <+: steps) (hdeclares : step.declares = true) :
    ∃ d, (after before).Adds step d ∧
      (after steps).decls[(after before).decls.length]? = some d := by
  rcases (after before).decls_apply step with ⟨hfalse, _⟩ | ⟨_, d, hadds, hadd⟩
  · rw [hdeclares] at hfalse
    cases hfalse
  · refine ⟨d, hadds, getElem?_after_of_prefix h ?_⟩
    rw [after_concat, hadd, List.getElem?_concat_length]

theorem id_of_getElem? {i : Nat} {d : Decl} (h : (after steps).decls[i]? = some d) :
    d.id = .ofIndex i := by
  obtain ⟨before, step, _, _, hlength, hadds⟩ := exists_step_of_getElem? h
  rw [hadds.id_eq, nextId, hlength]

theorem id_of_index {id : DeclId} {d : Decl} (h : (after steps).decls[id.index]? = some d) :
    d.id = id := by
  rw [id_of_getElem? h, ofIndex_index]

/-- Ids are positions as long as these can be counted. -/
theorem dense_after_iff :
    (∀ (i : Nat) (d : Decl), (after steps).decls[i]? = some d → d.id.index = i) ↔
      steps.countP Step.declares ≤ UInt32.size := by
  rw [← length_decls_after]
  constructor
  · intro hdense
    by_contra hmany
    have hget := List.getElem?_eq_getElem (Nat.lt_of_not_le hmany)
    have hindex := hdense _ _ hget
    rw [id_of_getElem? hget, index_ofIndex_eq_iff] at hindex
    exact Nat.lt_irrefl _ hindex
  · intro hcount i d hd
    have hlength := (List.getElem?_eq_some_iff.1 hd).1
    rw [id_of_getElem? hd, index_ofIndex_eq_iff]
    omega

/-- The step is one of the steps, and the id is what it returned. -/
def Returns (steps : List Step) (step : Step) (id : DeclId) : Prop :=
  ∃ before, before ++ [step] <+: steps ∧ step.declares = true ∧ id = (after before).nextId

theorem exists_returns_iff {id : DeclId} :
    (∃ step, Returns steps step id) ↔ id.index < (after steps).decls.length := by
  constructor
  · intro h
    obtain ⟨step, before, hprefix, hdeclares, rfl⟩ := h
    obtain ⟨d, _, hd⟩ := exists_getElem?_of_step hprefix hdeclares
    exact Nat.lt_of_le_of_lt (index_ofIndex_le _) (List.getElem?_eq_some_iff.1 hd).1
  · intro h
    obtain ⟨before, step, hprefix, hdeclares, hlength, _⟩ :=
      exists_step_of_getElem? (List.getElem?_eq_getElem h)
    exact ⟨step, before, hprefix, hdeclares, by rw [nextId, hlength, ofIndex_index]⟩

end Positions

section Types

/-- The types that are known in the end. -/
def registered (steps : List Step) : List TypeKey :=
  builtins.map Prod.fst ++ steps.flatMap Step.registers

theorem mem_keys_register {b : Builder} {key ty : TypeKey} {kind : TypeKind} :
    ty ∈ (b.register key kind).types.keys ↔ ty ∈ b.types.keys ∨ ty = key := by
  rw [register, OrderedMap.keys_insertNew]
  split_ifs with h
  · rw [iff_self_or]
    intro hty
    rw [hty]
    exact h
  · rw [List.mem_append, List.mem_singleton]

theorem mem_keys_registerSelfTypes {b : Builder} {selfTypes : List TypeKey} {ty : TypeKey} :
    ty ∈ (b.registerSelfTypes selfTypes).types.keys ↔ ty ∈ b.types.keys ∨ ty ∈ selfTypes := by
  rw [registerSelfTypes]
  induction selfTypes generalizing b with
  | nil => simp
  | cons selfType rest ih => rw [List.foldl_cons, ih, mem_keys_register, List.mem_cons, or_assoc]

theorem mem_keys_apply {b : Builder} {step : Step} {ty : TypeKey} :
    ty ∈ (b.apply step).types.keys ↔ ty ∈ b.types.keys ∨ ty ∈ step.registers := by
  cases step with
  | builtin name kind => rw [apply, mem_keys_register, Step.registers, List.mem_singleton]
  | dependent name => rw [apply, mem_keys_register, Step.registers, List.mem_singleton]
  | plainType name => rw [apply, mem_keys_register, Step.registers, List.mem_singleton]
  | record name spec selfTypes =>
    rw [apply, addRecord, declare, mem_keys_registerSelfTypes, mem_keys_register, Step.registers,
      List.mem_cons, or_assoc]
  | enumeration name isScoped inLibrary =>
    rw [apply, addEnumeration, declare, mem_keys_register, Step.registers, List.mem_singleton]
  | function name spec => exact (or_iff_left List.not_mem_nil).symm
  | other name inLibrary => exact (or_iff_left List.not_mem_nil).symm
  | redeclare earlier => exact (or_iff_left List.not_mem_nil).symm

theorem mem_keys_after {ty : TypeKey} : ty ∈ (after steps).types.keys ↔ ty ∈ registered steps := by
  induction steps using List.reverseRecOn with
  | nil => exact Iff.rfl
  | append_singleton steps step ih =>
    rw [after_concat, mem_keys_apply, ih]
    simp only [registered, List.flatMap_append, List.flatMap_singleton, List.mem_append, or_assoc]

/-- Record and enum types have a declaration among the first ones. -/
def Tagged (count : Nat) (types : TypeTable) : Prop :=
  ∀ key kind target, types.get? key = some kind → kind.tagDecl? = some target →
    target.index < count

variable {count : Nat} {b : Builder}

theorem Tagged.mono {further : Nat} {types : TypeTable} (h : Tagged count types)
    (hle : count ≤ further) : Tagged further types :=
  fun key kind target hkind htarget => Nat.lt_of_lt_of_le (h key kind target hkind htarget) hle

theorem Tagged.register {key : TypeKey} {kind : TypeKind} (h : Tagged count b.types)
    (hkind : ∀ target, kind.tagDecl? = some target → target.index < count) :
    Tagged count (b.register key kind).types := by
  intro other otherKind target hget htarget
  rw [Builder.register, OrderedMap.get?_insertNew] at hget
  split_ifs at hget
  · cases hget
    exact hkind target htarget
  · exact h other otherKind target hget htarget

theorem Tagged.registerSelfTypes {selfTypes : List TypeKey} (h : Tagged count b.types) :
    Tagged count (b.registerSelfTypes selfTypes).types := by
  rw [Builder.registerSelfTypes]
  induction selfTypes generalizing b with
  | nil => exact h
  | cons selfType rest ih => exact ih (h.register fun target htarget => by cases htarget)

theorem Tagged.apply {step : Step} (h : Tagged b.decls.length b.types) :
    Tagged (b.apply step).decls.length (b.apply step).types := by
  have hself : ∀ target, some b.nextId = some target → target.index < b.decls.length + 1 := by
    intro target htarget
    cases htarget
    exact Nat.lt_succ_of_le (index_ofIndex_le b.decls.length)
  have hmore := h.mono (Nat.le_succ b.decls.length)
  cases step with
  | builtin name kind => exact h.register fun target htarget => by cases htarget
  | dependent name => exact h.register fun target htarget => by cases htarget
  | plainType name => exact h.register fun target htarget => by cases htarget
  | record name spec selfTypes =>
    have hrecord : Tagged (b.decls.length + 1) (b.register name (.record b.nextId)).types :=
      hmore.register hself
    rw [Builder.apply, decls_addRecord, List.length_append]
    exact hrecord.registerSelfTypes
  | enumeration name isScoped inLibrary =>
    rw [Builder.apply, addEnumeration, declare, List.length_append]
    exact hmore.register hself
  | function name spec =>
    rw [Builder.apply, declare, List.length_append]
    exact hmore
  | other name inLibrary =>
    rw [Builder.apply, declare, List.length_append]
    exact hmore
  | redeclare earlier =>
    rw [Builder.apply, redeclare, List.length_append]
    exact hmore

theorem tagged_after (steps : List Step) :
    Tagged (after steps).decls.length (after steps).types := by
  induction steps using List.reverseRecOn with
  | nil =>
    have hbuiltin : ∀ e ∈ Builder.initial.types.entries, e.2.tagDecl? = none := by decide
    intro key kind target hget htarget
    rw [hbuiltin (key, kind) (OrderedMap.get?_eq_some_iff.1 hget)] at htarget
    cases htarget
  | append_singleton steps step ih =>
    rw [after_concat]
    exact ih.apply

end Types

section Links

/-- Every redeclaration names an id that a step before it has returned. -/
def Known (steps : List Step) : Prop :=
  ∀ before earlier, before ++ [.redeclare earlier] <+: steps →
    ∃ step, Returns before step earlier

theorem known_nil : Known [] := by
  intro before earlier hprefix
  have hlength := hprefix.length_le
  simp at hlength

theorem Known.concat (h : Known steps) (step : Step)
    (hstep : ∀ earlier, step = .redeclare earlier →
      earlier.index < steps.countP Step.declares) : Known (steps ++ [step]) := by
  intro before earlier hprefix
  rcases concat_prefix_concat_iff.1 hprefix with ⟨rfl, rfl⟩ | hold
  · rw [exists_returns_iff, length_decls_after]
    exact hstep earlier rfl
  · exact h before earlier hold

/-- Some redeclaration names the id before a step has returned it. -/
def Dangling (steps : List Step) (earlier : DeclId) : Prop :=
  ∃ before, before ++ [.redeclare earlier] <+: steps ∧ ¬∃ step, Returns before step earlier

theorem Known.not_dangling (h : Known steps) (earlier : DeclId) : ¬Dangling steps earlier := by
  intro hdangling
  obtain ⟨before, hprefix, hunknown⟩ := hdangling
  exact hunknown (h before earlier hprefix)

theorem Dangling.concat {earlier : DeclId} (h : Dangling steps earlier) (step : Step) :
    Dangling (steps ++ [step]) earlier := by
  obtain ⟨before, hprefix, hunknown⟩ := h
  exact ⟨before, hprefix.trans (List.prefix_append steps [step]), hunknown⟩

/-- A definition link leads to a new entity, or it dangles when it is made. -/
def Linked (steps : List Step) (d : Decl) : Prop :=
  ∀ target, d.definition = some target →
    Dangling steps target ∨
      ∃ e, (after steps).decls[target.index]? = some e ∧ e.definition = none

theorem Linked.concat {d : Decl} (h : Linked steps d) (step : Step) :
    Linked (steps ++ [step]) d := by
  intro target htarget
  rcases h target htarget with hdangling | ⟨e, he, hnone⟩
  · exact Or.inl (hdangling.concat step)
  · exact Or.inr ⟨e, getElem?_after_of_prefix (List.prefix_append steps [step]) he, hnone⟩

theorem Linked.copy {earlier : DeclId} {original : Decl}
    (horiginal : (after steps).decls[earlier.index]? = some original)
    (h : Linked steps original) (id : DeclId) : Linked steps (Builder.copy id original) := by
  intro target htarget
  have htarget : original.definition.getD original.id = target := Option.some.inj htarget
  cases hlink : original.definition with
  | none =>
    have hearlier : target = earlier := by
      rw [← htarget, hlink]
      exact id_of_index horiginal
    exact Or.inr ⟨original, by rw [hearlier, horiginal], hlink⟩
  | some further =>
    have hfurther : further = target := by
      rw [← htarget, hlink]
      rfl
    exact h target (by rw [hlink, hfurther])

theorem linked_after {d : Decl} (hd : d ∈ (after steps).decls) : Linked steps d := by
  induction steps using List.reverseRecOn generalizing d with
  | nil => cases hd
  | append_singleton steps step ih =>
    rw [after_concat] at hd
    rcases (after steps).decls_apply step with ⟨_, hsame⟩ | ⟨_, e, hadds, hadd⟩
    · rw [hsame] at hd
      exact (ih hd).concat step
    · rw [hadd, List.mem_append, List.mem_singleton] at hd
      rcases hd with hold | rfl
      · exact (ih hold).concat step
      · cases hadds with
        | new hkind inLibrary =>
          intro target htarget
          cases htarget
        | @again earlier original horiginal =>
          have hlinked := ih (List.mem_of_getElem? horiginal)
          exact (hlinked.copy horiginal _).concat _
        | @unknown earlier hnone =>
          intro target htarget
          cases htarget
          have hlength := List.getElem?_eq_none_iff.1 hnone
          refine Or.inl ⟨steps, List.prefix_rfl, ?_⟩
          rw [exists_returns_iff]
          exact Nat.not_lt.2 hlength

end Links

end InteropWitness.SourceUnit

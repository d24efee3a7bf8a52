import InteropWitness.Proofs.Analysis.Run

namespace InteropWitness

namespace Relation

variable {ctx : Context} {relation : Relation}

theorem decides_of_closed (h : ∀ entity, (opened ctx).get? entity ≠ some .unknown) :
    (relation.analysis ctx.config).Decides ctx (fun s => s.store = opened ctx) (opened ctx)
      (verdict ctx relation) where
  visits _ _ := rfl
  gathers := by
    rw [gathered_analysis]
    exact ⟨rfl, rfl⟩
  resolves _ := exists_defining_of_mem_opened
  keeps _ _ _ := finalize_of_decided
  closes s entity v d hs hv hopen _ := by
    change s.store.get? entity = some v at hv
    rw [hs, of_decide_eq_true hopen] at hv
    exact absurd hv (h entity)
  decided entity d := decide_eq_false (verdict_ne_unknown entity d)

section Missing

variable (hmissing : ctx.frozenEquality = none)
include hmissing

theorem judge_of_missing (table : List RelationOverride) (w : WitnessSet) (entity : Identity)
    (d : Decl) :
    judge ctx .ordering table w entity d = .error (.missingDependency ctx.pass .equality) := by
  simp only [judge, gate, Context.equality, hmissing, Except.map]

theorem finalize_of_missing {s : RelationState} {entity : Identity} {v : RelationVerdict} {d : Decl}
    (hv : s.store.get? entity = some v) (hd : ctx.unit.defining? entity = some d) :
    (ordering.analysis ctx.config).finalize ctx entity s =
      (s, if v = .unknown then some (.missingDependency ctx.pass .equality) else none) := by
  have hdefining : ctx.defining entity = .ok d := by rw [Context.defining, hd]
  simp only [analysis, finalize, hv, hdefining, Except.bind, judge_of_missing hmissing]
  split <;> rfl

theorem run_of_missing {entity : Identity} (hopen : (opened ctx).get? entity = some .unknown) :
    (ordering.analysis ctx.config).run ctx = .error (.missingDependency ctx.pass .equality) := by
  refine Pass.run_eq_error (fun _ _ => rfl) (s := ⟨.ofList (witnesses ctx ordering), opened ctx⟩) ?_
  rw [gathered_analysis]
  apply Attempt.each_eq_of_fails
  · intro key hkey
    obtain ⟨v, hv⟩ := OrderedMap.exists_get?_of_mem hkey
    obtain ⟨d, _, hd, _⟩ := exists_defining_of_mem_opened hkey
    rw [finalize_of_missing hmissing hv hd]
    split
    · exact Or.inr rfl
    · exact Or.inl rfl
  · have hkey := OrderedMap.mem_keys_of_get? hopen
    obtain ⟨d, _, hd, _⟩ := exists_defining_of_mem_opened hkey
    exact ⟨entity, hkey, by rw [finalize_of_missing hmissing hopen hd, if_pos rfl]⟩

end Missing

theorem get?_opened_unknown_iff {entity : Identity} :
    (opened ctx).get? entity = some .unknown ↔
      ctx.unit.Reports entity ∧ ctx.import? entity = some .value := by
  rw [get?_opened_iff, Option.map_eq_some_iff]
  simp only [ImportClass.opening_eq_unknown_iff, exists_eq_right]

/-- Ordering has to read the results of equality, and there are none. -/
def Lacks (ctx : Context) : Prop :=
  ctx.frozenEquality = none ∧ ∃ entity, ctx.unit.Reports entity ∧ ctx.import? entity = some .value

theorem run_of_lacks (h : Lacks ctx) :
    (ordering.analysis ctx.config).run ctx = .error (.missingDependency ctx.pass .equality) := by
  obtain ⟨hmissing, entity, hneeds⟩ := h
  exact run_of_missing hmissing (get?_opened_unknown_iff.2 hneeds)

theorem run_of_not_lacks (h : ¬Lacks ctx) :
    (ordering.analysis ctx.config).run ctx = .ok (resolved ctx ordering) := by
  cases hfrozen : ctx.frozenEquality with
  | some store => exact run_eq_resolved fun _ => by rw [hfrozen]; rfl
  | none =>
    have hclosed : ∀ entity, (opened ctx).get? entity ≠ some .unknown :=
      fun entity hopen => h ⟨hfrozen, entity, get?_opened_unknown_iff.1 hopen⟩
    exact (decides_of_closed hclosed).run_eq

/-- On a value import, the gate alone decides between the blocked result and the others. -/
theorem get?_resolved_eq_blocked_iff {entity : Identity} {v : RelationVerdict}
    (hv : (resolved ctx relation).get? entity = some v)
    (himport : ctx.import? entity = some .value) :
    v = .blockedByEquality ↔ permits ctx relation entity = false := by
  obtain ⟨_, i, hi, d, _, rfl⟩ := get?_resolved_iff.1 hv
  obtain rfl : i = .value := Option.some.inj (hi.symm.trans himport)
  rw [if_pos rfl]
  rcases verdict_cases ctx relation entity d with ⟨hclosed, hblocked⟩ | ⟨hopen, hjudged⟩
  · simp only [hclosed, hblocked]
  · rw [hopen]
    rcases hjudged with hunavailable | havailable
    · simp [hunavailable]
    · refine ⟨fun hblocked => ?_, fun h => by cases h⟩
      rw [hblocked] at havailable
      cases havailable

end Relation

namespace Analysis

/-- For every analysis and all frozen results of equality, or none: ordering fails exactly if there
are none and a library record or enum is imported as a value, and it then names the dependency that
is missing. Where it succeeds, its result for a value import is the blocked one exactly if the
frozen results have no available equality for it. -/
theorem ordering_needs_equality (a : Analysis) (frozen : Option (Store RelationVerdict)) :
    ((∃ v, (Relation.ordering.analysis a.config).run (a.context .ordering frozen) = .error v) ↔
      frozen = none ∧
        ∃ entity, a.unit.Reports entity ∧ a.inputs.imports.get? entity = some .value) ∧
    (∀ v, (Relation.ordering.analysis a.config).run (a.context .ordering frozen) = .error v →
      v = .missingDependency .ordering .equality) ∧
    ∀ store, (Relation.ordering.analysis a.config).run (a.context .ordering frozen) = .ok store →
      ∀ entity ∈ store.keys, a.inputs.imports.get? entity = some .value →
        (store.get? entity = some .blockedByEquality ↔
          (frozen.bind (·.get? entity)).any (·.isAvailable) = false) := by
  have hconfig : (a.context .ordering frozen).config = a.config := rfl
  by_cases hlacks : Relation.Lacks (a.context .ordering frozen)
  · have hrun := Relation.run_of_lacks hlacks
    rw [hconfig] at hrun
    rw [hrun]
    refine ⟨⟨fun _ => hlacks, fun _ => ⟨_, rfl⟩⟩, ?_, ?_⟩
    · rintro v ⟨⟩
      rfl
    · rintro store ⟨⟩
  · have hrun := Relation.run_of_not_lacks hlacks
    rw [hconfig] at hrun
    rw [hrun]
    refine ⟨⟨?_, fun h => absurd h hlacks⟩, ?_, ?_⟩
    · rintro ⟨v, ⟨⟩⟩
    · rintro v ⟨⟩
    · rintro store ⟨⟩ entity hmem himport
      obtain ⟨v, hv⟩ := OrderedMap.exists_get?_of_mem hmem
      have hpermits : Relation.permits (a.context .ordering frozen) .ordering entity =
          (frozen.bind (·.get? entity)).any (·.isAvailable) := by
        cases frozen <;> rfl
      rw [← hpermits, ← Relation.get?_resolved_eq_blocked_iff hv himport, hv, Option.some_inj]

end Analysis

end InteropWitness

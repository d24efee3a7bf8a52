import InteropWitness.Proofs.Analysis.Relation
import InteropWitness.Proofs.Relation.Specialization

namespace InteropWitness.Analysis

variable {a : Analysis} {entity : Identity} {d : Decl} {s : Specialization}

theorem relationStore_of_specialization (relation : Relation)
    (himport : a.inputs.imports.get? entity = some .value)
    (hd : a.unit.defining? entity = some d) (hs : d.specialization? = some s)
    (hbool : a.unit.isBool s.selfType = false) {v : RelationVerdict}
    (hv : (a.relationStore relation).get? entity = some v)
    (hpermits : Relation.permits (a.relationContext relation) relation entity = true)
    (hforced : ¬Relation.Forced (a.relationContext relation) relation d) :
    v ∉ [RelationVerdict.foundByConsumer, .missedByConsumer, .lateInlineMethod] ∧
      (Relation.HasSharedWitness (a.relationContext relation) relation s.selfType →
        v ∈ [RelationVerdict.templateSpecialization, .friendFunction]) := by
  obtain ⟨_, i, hi, e, he, rfl⟩ := (get?_relationStore_iff relation).1 hv
  rw [himport] at hi
  cases hi
  rw [hd] at he
  cases he
  rw [if_pos rfl]
  rw [← a.relationContext_unit relation] at hbool
  exact ⟨Relation.verdict_not_mem_of_specialization hpermits hforced hs,
    Relation.verdict_mem_of_shared hpermits hforced hs hbool⟩

/-- For every analysis and every value import whose definition is a specialization of a template,
the self type of which is not bool. An equality result that no override forces never says that the
consumer finds a comparison, misses it or finds it late; and if any visible `==` of the unit has
usable operands that are specializations of the template, both with this self type, the result is
that of a specialization or of a friend. The same holds of `<` and of ordering results where
equality is available. -/
theorem specialization_shares_witnesses (a : Analysis)
    (himport : a.inputs.imports.get? entity = some .value)
    (hd : a.unit.defining? entity = some d) (hs : d.specialization? = some s)
    (hbool : a.unit.isBool s.selfType = false) :
    ∃ r, a.run = .ok r ∧
      (∀ v, r.equality.get? entity = some v →
        ¬Relation.Forced (a.context .equality none) .equality d →
        v ∉ [RelationVerdict.foundByConsumer, .missedByConsumer, .lateInlineMethod] ∧
          (Relation.HasSharedWitness (a.context .equality none) .equality s.selfType →
            v ∈ [RelationVerdict.templateSpecialization, .friendFunction])) ∧
      ∀ v, r.ordering.get? entity = some v →
        (r.equality.get? entity).any (·.isAvailable) = true →
        ¬Relation.Forced (a.context .ordering (some r.equality)) .ordering d →
        v ∉ [RelationVerdict.foundByConsumer, .missedByConsumer, .lateInlineMethod] ∧
          (Relation.HasSharedWitness (a.context .ordering (some r.equality)) .ordering s.selfType →
            v ∈ [RelationVerdict.templateSpecialization, .friendFunction]) := by
  refine ⟨a.results, a.run_eq_results, fun v hv hforced => ?_, fun v hv hequality hforced => ?_⟩
  · exact relationStore_of_specialization .equality himport hd hs hbool hv rfl hforced
  · have hpermits := (permits_ordering (a := a) entity).trans hequality
    exact relationStore_of_specialization .ordering himport hd hs hbool hv hpermits hforced

/-- A comparison of two values of one specialization. -/
def spanComparison (operator : Operator) : FunctionDecl :=
  ⟨some operator, [.constRef "Span<int>", .constRef "Span<int>"], .value "bool", none, .unspecified,
    false, false, false⟩

/-- Two specializations of one template, with comparisons of the first declared after the second. -/
def spans : Analysis where
  unit :=
    { decls :=
        [⟨⟨0⟩, "Span<int>", none, true,
            .record ⟨"Span<int>", [], [], some ⟨"Span", "Span<T>", ["int"]⟩⟩⟩,
          ⟨⟨1⟩, "Span<char>", none, true,
            .record ⟨"Span<char>", [], [], some ⟨"Span", "Span<T>", ["char"]⟩⟩⟩,
          ⟨⟨2⟩, "operator==", none, true, .function (spanComparison .equal)⟩,
          ⟨⟨3⟩, "operator<", none, true, .function (spanComparison .less)⟩]
      types := OrderedMap.ofList
        [("bool", .builtin .bool), ("int", .builtin .integer), ("char", .builtin .char),
          ("Span<T>", .dependent), ("Span<int>", .record ⟨0⟩), ("Span<char>", .record ⟨1⟩)]
      wellFormed := WellFormed.fault?_eq_none_iff.1 (by decide) }
  inputs := ⟨.ofList [(⟨⟨0⟩⟩, .value), (⟨⟨1⟩⟩, .value)], .empty⟩
  config := .default

theorem spans_hasSharedWitness (relation : Relation) :
    Relation.HasSharedWitness (spans.relationContext relation) relation "Span<T>" := by
  have hspan : spans.unit.Specializes "Span<int>" "Span<T>" :=
    ⟨⟨0⟩, _, _, _, by decide, ⟨⟨⟨0⟩⟩, by decide, rfl, rfl⟩, rfl, rfl⟩
  have hcompares : Relation.Compares (spans.relationContext relation) relation
      (spanComparison relation.operator) "Span<int>" "Span<int>" :=
    { operator := rfl
      returnsBool := by cases relation <;> decide
      present := rfl
      accessible := rfl
      operands := ⟨.constRef "Span<int>", .constRef "Span<int>", .inl rfl,
        by cases relation <;> decide, by cases relation <;> decide⟩
      usable := by cases relation <;> exact ⟨by decide, by decide⟩ }
  have hdeclared : ∃ d ∈ (spans.relationContext relation).unit.decls,
      d.kind = .function (spanComparison relation.operator) := by
    cases relation
    · exact ⟨_, List.mem_of_getElem? (i := 2) rfl, rfl⟩
    · exact ⟨_, List.mem_of_getElem? (i := 3) rfl, rfl⟩
  obtain ⟨d, hmem, hkind⟩ := hdeclared
  rw [← spans.relationContext_unit relation] at hspan
  exact ⟨d, hmem, _, hkind, _, _, hcompares, hspan, hspan⟩

theorem exists_get?_spans (relation : Relation) :
    ∃ v, (spans.relationStore relation).get? ⟨⟨1⟩⟩ = some v := by
  have hreports : spans.unit.Reports ⟨⟨1⟩⟩ :=
    ⟨_, List.mem_cons_of_mem _ List.mem_cons_self, rfl, rfl, rfl⟩
  exact ⟨_, (get?_relationStore_iff relation).2 ⟨hreports, .value, by decide, _, rfl, rfl⟩⟩

/-- The second specialization, which has no comparison of its own, can be compared and ordered. -/
theorem specialization_shares_spans :
    spans.inputs.imports.get? ⟨⟨1⟩⟩ = some .value ∧
      spans.unit.defining? ⟨⟨1⟩⟩ = spans.unit.decls[1]? ∧
      spans.unit.isBool "Span<T>" = false ∧ ∃ r v w, spans.run = .ok r ∧
        r.equality.get? ⟨⟨1⟩⟩ = some v ∧ r.ordering.get? ⟨⟨1⟩⟩ = some w ∧
        v ∈ [RelationVerdict.templateSpecialization, .friendFunction] ∧
        w ∈ [RelationVerdict.templateSpecialization, .friendFunction] := by
  have himport : spans.inputs.imports.get? ⟨⟨1⟩⟩ = some .value := by decide
  have hbool : spans.unit.isBool "Span<T>" = false := by decide
  obtain ⟨r, hr, hequality, hordering⟩ :=
    specialization_shares_witnesses spans himport rfl rfl hbool
  cases (spans.run_eq_results).symm.trans hr
  obtain ⟨v, hv⟩ := exists_get?_spans .equality
  obtain ⟨w, hw⟩ := exists_get?_spans .ordering
  obtain ⟨_, hshared⟩ := hequality v hv (by decide)
  have hv' := hshared (spans_hasSharedWitness .equality)
  have havailable : (spans.results.equality.get? ⟨⟨1⟩⟩).any (·.isAvailable) = true := by
    have hall : ∀ x ∈ [RelationVerdict.templateSpecialization, .friendFunction],
        x.isAvailable = true := by decide
    change ((spans.relationStore .equality).get? ⟨⟨1⟩⟩).any (·.isAvailable) = true
    rw [hv]
    exact hall v hv'
  obtain ⟨_, hshared⟩ := hordering w hw havailable (by decide)
  exact ⟨himport, rfl, hbool, _, v, w, spans.run_eq_results, hv, hw, hv',
    hshared (spans_hasSharedWitness .ordering)⟩

end InteropWitness.Analysis

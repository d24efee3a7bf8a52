import InteropWitness.Proofs.Analysis.Run
import InteropWitness.Proofs.Relation.Found

namespace InteropWitness.Analysis

variable {a : Analysis}

theorem get?_relationStore_iff (relation : Relation) {entity : Identity} {v : RelationVerdict} :
    (a.relationStore relation).get? entity = some v ↔
      a.unit.Reports entity ∧ ∃ i, a.inputs.imports.get? entity = some i ∧
        ∃ d, a.unit.defining? entity = some d ∧ v = if i = ImportClass.value then
          Relation.verdict (a.relationContext relation) relation entity d else i.opening := by
  cases relation
  · exact Relation.get?_resolved_iff
  · exact Relation.get?_resolved_iff

/-- An identity has an entry in both stores or in neither, and the two come from one import class
and one definition. -/
theorem relationStore_cases (a : Analysis) (entity : Identity) :
    (∀ relation, (a.relationStore relation).get? entity = none) ∨
      ∃ i d, ∀ relation, (a.relationStore relation).get? entity =
        some (if i = ImportClass.value then
          Relation.verdict (a.relationContext relation) relation entity d else i.opening) := by
  cases he : (a.relationStore .equality).get? entity with
  | none =>
    refine Or.inl fun relation => ?_
    cases hv : (a.relationStore relation).get? entity with
    | none => rfl
    | some v =>
      obtain ⟨hreports, i, hi, d, hd, _⟩ := (get?_relationStore_iff relation).1 hv
      rw [(get?_relationStore_iff .equality).2 ⟨hreports, i, hi, d, hd, rfl⟩] at he
      cases he
  | some v =>
    obtain ⟨hreports, i, hi, d, hd, _⟩ := (get?_relationStore_iff .equality).1 he
    exact Or.inr ⟨i, d, fun relation =>
      (get?_relationStore_iff relation).2 ⟨hreports, i, hi, d, hd, rfl⟩⟩

theorem permits_ordering (entity : Identity) :
    Relation.permits (a.relationContext .ordering) .ordering entity =
      ((a.relationStore .equality).get? entity).any (·.isAvailable) := rfl

/-- What the results of equality and ordering for one identity can be together. -/
inductive Gated : Option RelationVerdict → Option RelationVerdict → Prop
  | absent : Gated none none
  /-- The import class decides both alike. -/
  | imported (v : RelationVerdict) (hu : v ≠ .unavailable) (hb : v ≠ .blockedByEquality) :
      Gated (some v) (some v)
  | blocked : Gated (some .unavailable) (some .blockedByEquality)
  | unordered (v : RelationVerdict) (h : v.isAvailable = true) : Gated (some v) (some .unavailable)
  | ordered (v w : RelationVerdict) (hv : v.isAvailable = true) (hw : w.isAvailable = true) :
      Gated (some v) (some w)

theorem gated_relationStore (a : Analysis) (entity : Identity) :
    Gated ((a.relationStore .equality).get? entity) ((a.relationStore .ordering).get? entity) := by
  rcases a.relationStore_cases entity with hnone | ⟨i, d, hsome⟩
  · rw [hnone, hnone]
    exact .absent
  · have hpermits := permits_ordering (a := a) entity
    rw [hsome .equality] at hpermits ⊢
    rw [hsome .ordering]
    by_cases hi : i = ImportClass.value
    · rw [if_pos hi] at hpermits ⊢
      rw [if_pos hi]
      rcases Relation.verdict_cases (a.relationContext .equality) .equality entity d with
        ⟨hfalse, _⟩ | ⟨_, hequality⟩
      · cases hfalse
      · rcases Relation.verdict_cases (a.relationContext .ordering) .ordering entity d with
          ⟨hclosed, hblocked⟩ | ⟨hopen, hordering⟩
        · rw [hclosed, Option.any_some] at hpermits
          rcases hequality with h | h
          · rw [h, hblocked]
            exact .blocked
          · rw [h] at hpermits
            cases hpermits
        · rw [hopen, Option.any_some] at hpermits
          rcases hordering with h | h
          · rw [h]
            exact .unordered _ hpermits.symm
          · exact .ordered _ _ hpermits.symm h
    · rw [if_neg hi, if_neg hi]
      exact .imported _ i.opening_ne_unavailable i.opening_ne_blockedByEquality

theorem keys_relationStore (a : Analysis) (relation : Relation) :
    (a.relationStore relation).keys = (Relation.opened (a.relationContext .equality)).keys := by
  rw [relationStore, Relation.resolved, OrderedMap.keys_mapValues]
  cases relation <;> rfl

/-- For every analysis and every identity: the two stores have the same keys; ordering is available
only with equality; it is blocked by equality exactly where equality is unavailable, and plainly
unavailable only where equality is available. -/
theorem ordering_gated_by_equality (a : Analysis) :
    ∃ r, a.run = .ok r ∧ ∀ entity,
      (entity ∈ r.ordering.keys ↔ entity ∈ r.equality.keys) ∧
      ((r.ordering.get? entity).any (·.isAvailable) = true →
        (r.equality.get? entity).any (·.isAvailable) = true) ∧
      (r.ordering.get? entity = some .blockedByEquality ↔
        r.equality.get? entity = some .unavailable) ∧
      (r.ordering.get? entity = some .unavailable →
        (r.equality.get? entity).any (·.isAvailable) = true) ∧
      r.equality.get? entity ≠ some .blockedByEquality := by
  refine ⟨a.results, a.run_eq_results, fun entity => ⟨?_, ?_⟩⟩
  · change entity ∈ (a.relationStore .ordering).keys ↔ entity ∈ (a.relationStore .equality).keys
    rw [keys_relationStore, keys_relationStore]
  · have hgated := a.gated_relationStore entity
    change Gated (a.results.equality.get? entity) (a.results.ordering.get? entity) at hgated
    generalize a.results.equality.get? entity = e at hgated ⊢
    generalize a.results.ordering.get? entity = o at hgated ⊢
    cases hgated with
    | absent => simp
    | imported v hu hb => simp [hu, hb]
    | blocked => simp [RelationVerdict.isAvailable]
    | unordered v h =>
      refine ⟨fun _ => h, ⟨fun ho => (by cases ho), ?_⟩, fun _ => h, ?_⟩
      · intro he
        cases he
        cases h
      · intro he
        cases he
        cases h
    | ordered v w hv hw =>
      refine ⟨fun _ => hv, ⟨?_, ?_⟩, fun _ => hv, ?_⟩
      · intro ho
        cases ho
        cases hw
      · intro he
        cases he
        cases hv
      · intro he
        cases he
        cases hv

/-- For every analysis and every equality result whose import is a value: the result is unavailable
where an override forces it, and else available exactly if two types that the definition converts
to are supported, by builtin numbers or by some visible `==` anywhere in the unit. -/
theorem equality_available_iff (a : Analysis) {entity : Identity}
    (himport : a.inputs.imports.get? entity = some .value) :
    ∃ r, a.run = .ok r ∧ ∀ v, r.equality.get? entity = some v →
      ∃ d, a.unit.defining? entity = some d ∧
        (Relation.Forced (a.context .equality none) .equality d → v = .unavailable) ∧
        (¬Relation.Forced (a.context .equality none) .equality d →
          (v.isAvailable = true ↔ Relation.Supported (a.context .equality none) .equality d)) := by
  refine ⟨a.results, a.run_eq_results, fun v hv => ?_⟩
  obtain ⟨_, i, hi, d, hd, hverdict⟩ := (get?_relationStore_iff .equality).1 hv
  rw [himport] at hi
  cases hi
  rw [if_pos rfl] at hverdict
  subst hverdict
  refine ⟨d, hd, fun hforced => ?_, fun hforced => ?_⟩
  · exact (if_pos rfl).trans (Relation.overridden_of_forced hforced _)
  · exact Relation.isAvailable_verdict_iff rfl hforced

/-- The key of an entry stands for a declaration that defines it, and only a value import leaves its
result to the witnesses. -/
theorem get?_relationStore_eq_foundByConsumer_iff (relation : Relation) {entity : Identity} :
    (a.relationStore relation).get? entity = some .foundByConsumer ↔
      entity ∈ (a.relationStore relation).keys ∧ a.inputs.imports.get? entity = some .value ∧
        ∃ d, a.unit.defining? entity = some d ∧
          Relation.permits (a.relationContext relation) relation entity = true ∧
            Relation.Found (a.relationContext relation) relation d := by
  have hverdict : ∀ d, a.unit.Reports entity → a.unit.defining? entity = some d →
      (Relation.verdict (a.relationContext relation) relation entity d = .foundByConsumer ↔
        Relation.permits (a.relationContext relation) relation entity = true ∧
          Relation.Found (a.relationContext relation) relation d) := by
    intro d hreports hd
    obtain ⟨d₀, hd₀, _, _, rfl⟩ := hreports
    obtain ⟨e, he, _, hdefines⟩ := SourceUnit.exists_defines hd₀
    rw [hd] at he
    cases he
    rw [← a.relationContext_unit relation] at hdefines
    exact Relation.verdict_eq_foundByConsumer_iff hdefines
  constructor
  · intro h
    have hmem := OrderedMap.mem_keys_of_get? h
    obtain ⟨hreports, i, hi, d, hd, hv⟩ := (get?_relationStore_iff relation).1 h
    by_cases hvalue : i = .value
    · rw [if_pos hvalue] at hv
      rw [hvalue] at hi
      exact ⟨hmem, hi, d, hd, (hverdict d hreports hd).1 hv.symm⟩
    · rw [if_neg hvalue] at hv
      cases i <;> simp [ImportClass.opening, ImportClass.isImported, ImportClass.isReference] at hv
  · intro h
    obtain ⟨hmem, hi, d, hd, hfound⟩ := h
    obtain ⟨v, hv⟩ := OrderedMap.exists_get?_of_mem hmem
    obtain ⟨hreports, _⟩ := (get?_relationStore_iff relation).1 hv
    refine (get?_relationStore_iff relation).2 ⟨hreports, .value, hi, d, hd, ?_⟩
    rw [if_pos rfl]
    exact ((hverdict d hreports hd).2 hfound).symm

/-- For every analysis, an equality result says that the consumer finds the comparison by itself
exactly if the import is a value, and the definition declares a record or enum, no specialization
and not of the builtin type bool, that no override forces to be unavailable or to be missed, and
that some visible `==` of the unit with usable operands, neither a friend nor a late inline method,
takes on both sides. An ordering result says so exactly if the same holds of `<` and equality is
available. -/
theorem found_by_consumer_iff (a : Analysis) :
    ∃ r, a.run = .ok r ∧ ∀ entity,
      (r.equality.get? entity = some .foundByConsumer ↔
        entity ∈ r.equality.keys ∧ a.inputs.imports.get? entity = some .value ∧
          ∃ d, a.unit.defining? entity = some d ∧
            Relation.Found (a.context .equality none) .equality d) ∧
      (r.ordering.get? entity = some .foundByConsumer ↔
        entity ∈ r.ordering.keys ∧ a.inputs.imports.get? entity = some .value ∧
          ∃ d, a.unit.defining? entity = some d ∧
            (r.equality.get? entity).any (·.isAvailable) = true ∧
              Relation.Found (a.context .ordering (some r.equality)) .ordering d) := by
  refine ⟨a.results, a.run_eq_results, fun entity => ⟨?_, ?_⟩⟩
  · have hequality := @get?_relationStore_eq_foundByConsumer_iff a .equality entity
    simp only [Relation.permits, true_and] at hequality
    exact hequality
  · exact get?_relationStore_eq_foundByConsumer_iff .ordering

/-- The verdicts that import classes decide, and that of an entry that is still open. -/
def beforeSearch : List RelationVerdict :=
  [.unknown, .blockedByImport, .nonCopyable, .importedAsReference]

theorem verdict_not_mem_beforeSearch (ctx : Context) (relation : Relation) (entity : Identity)
    (d : Decl) : Relation.verdict ctx relation entity d ∉ beforeSearch := by
  have hjudged := Relation.judged_verdict ctx relation entity d
  generalize Relation.verdict ctx relation entity d = v at hjudged ⊢
  rcases hjudged with rfl | hjudged
  · decide
  · cases hjudged with
    | unavailable => decide
    | missed => decide
    | ranked hlevel =>
      intro hmem
      have hunranked : ∀ w ∈ beforeSearch, w.level = 0 := by decide
      rw [hunranked v hmem] at hlevel
      cases hlevel

/-- What the result of an entry says of the import class of its key. -/
structure Reflects (i : ImportClass) (v : RelationVerdict) : Prop where
  blocked : v = .blockedByImport ↔ i.isImported = false
  nonCopyable : v = .nonCopyable ↔ i = .nonCopyable
  reference : v = .importedAsReference ↔ i = .sharedReference ∨ i = .immortalReference
  value : v ∉ beforeSearch ↔ i = .value

theorem reflects_opening {i : ImportClass} (hi : i ≠ .value) : Reflects i i.opening := by
  cases i with
  | value => exact absurd rfl hi
  | _ => exact ⟨by decide, by decide, by decide, by decide⟩

theorem reflects_value {v : RelationVerdict} (h : v ∉ beforeSearch) : Reflects .value v := by
  have hnone : ∀ w ∈ beforeSearch, v ≠ w := by
    intro w hw heq
    rw [heq] at h
    exact h hw
  refine ⟨?_, ?_, ?_, ?_⟩
  · exact iff_of_false (hnone _ (by decide)) (by decide)
  · exact iff_of_false (hnone _ (by decide)) (by decide)
  · exact iff_of_false (hnone _ (by decide)) (by decide)
  · exact iff_of_true h rfl

theorem reflects_relationStore (relation : Relation) {entity : Identity} {v : RelationVerdict}
    (hv : (a.relationStore relation).get? entity = some v) :
    ∃ i, a.inputs.imports.get? entity = some i ∧ Reflects i v := by
  obtain ⟨_, i, hi, d, _, rfl⟩ := (get?_relationStore_iff relation).1 hv
  refine ⟨i, hi, ?_⟩
  by_cases hvalue : i = .value
  · rw [if_pos hvalue, hvalue]
    exact reflects_value (verdict_not_mem_beforeSearch _ relation entity d)
  · rw [if_neg hvalue]
    exact reflects_opening hvalue

/-- For every analysis: the keys of either store are the identities of the records and enums of the
library that have an import class, each once and in the order of their first such declarations. A
result says that there was no analysis, or that the import is a reference, exactly where the import
class does, and it is any other but unknown exactly where the import is a value. -/
theorem relation_entries (a : Analysis) :
    ∃ r, a.run = .ok r ∧ ∀ store ∈ [r.equality, r.ordering],
      store.keys = ((a.unit.decls.filter a.inputs.reports).map (·.identity)).eraseDups ∧
        ∀ entity v, store.get? entity = some v →
          ∃ i, a.inputs.imports.get? entity = some i ∧ Reflects i v := by
  have hentries : ∀ relation, (a.relationStore relation).keys =
        ((a.unit.decls.filter a.inputs.reports).map (·.identity)).eraseDups ∧
      ∀ entity v, (a.relationStore relation).get? entity = some v →
        ∃ i, a.inputs.imports.get? entity = some i ∧ Reflects i v := by
    intro relation
    rw [keys_relationStore, Relation.keys_opened]
    exact ⟨rfl, fun _ _ => reflects_relationStore relation⟩
  refine ⟨a.results, a.run_eq_results, fun store hstore => ?_⟩
  rw [List.mem_cons, List.mem_singleton] at hstore
  rcases hstore with rfl | rfl
  · exact hentries .equality
  · exact hentries .ordering

/-- Two specializations of one template, and a comparison that is a member of the first. -/
def boxes : Analysis where
  unit :=
    { decls :=
        [⟨⟨0⟩, "Box<int>", none, true, .record ⟨"Box<int>", [], [], some ⟨"Box", "Box<T>", ["int"]⟩⟩⟩,
          ⟨⟨1⟩, "Box<char>", none, true,
            .record ⟨"Box<char>", [], [], some ⟨"Box", "Box<T>", ["char"]⟩⟩⟩,
          ⟨⟨2⟩, "Box<int>::operator==", none, true, .function
            ⟨some .equal, [.constRef "Box<int>"], .value "bool", some ⟨"Box<int>", true⟩,
              .publicAccess, false, false, false⟩⟩]
      types := OrderedMap.ofList
        [("bool", .builtin .bool), ("int", .builtin .integer), ("char", .builtin .char),
          ("Box<T>", .dependent), ("Box<int>", .record ⟨0⟩), ("Box<char>", .record ⟨1⟩)]
      wellFormed := WellFormed.fault?_eq_none_iff.1 (by decide) }
  inputs := ⟨.ofList [(⟨⟨0⟩⟩, .value), (⟨⟨1⟩⟩, .value)], .empty⟩
  config := .default

theorem boxes_compares :
    Relation.HasWitness (boxes.context .equality none) .equality "Box<T>" "Box<T>" := by
  refine ⟨_, List.mem_cons_of_mem _ (List.mem_cons_of_mem _ List.mem_cons_self), _, rfl,
    "Box<int>", "Box<int>", ?_, "Box<T>", "Box<T>", Or.inr (by decide), Or.inr (by decide), rfl⟩
  exact
    { operator := rfl
      returnsBool := by decide
      present := rfl
      accessible := rfl
      operands := ⟨.constRef "Box<int>", .constRef "Box<int>",
        Or.inr ⟨_, rfl, rfl, rfl⟩, by decide, by decide⟩
      usable := ⟨by decide, by decide⟩ }

/-- The comparison of the first specialization makes the second one equatable. -/
theorem equality_available_boxes :
    boxes.inputs.imports.get? ⟨⟨1⟩⟩ = some .value ∧ ∃ r v, boxes.run = .ok r ∧
      r.equality.get? ⟨⟨1⟩⟩ = some v ∧ v.isAvailable = true := by
  have himport : boxes.inputs.imports.get? ⟨⟨1⟩⟩ = some .value := by decide
  obtain ⟨r, hr, hall⟩ := equality_available_iff boxes himport
  rw [run_eq_results] at hr
  cases hr
  have hdefining : boxes.unit.defining? ⟨⟨1⟩⟩ = boxes.unit.decls[1]? := rfl
  have hreports : boxes.unit.Reports ⟨⟨1⟩⟩ :=
    ⟨_, List.mem_cons_of_mem _ List.mem_cons_self, rfl, rfl, rfl⟩
  obtain ⟨v, hv⟩ : ∃ v, boxes.results.equality.get? ⟨⟨1⟩⟩ = some v :=
    ⟨_, (get?_relationStore_iff .equality).2 ⟨hreports, .value, himport, _, hdefining, rfl⟩⟩
  obtain ⟨d, hd, _, havailable⟩ := hall v hv
  rw [hdefining] at hd
  cases hd
  refine ⟨himport, _, v, run_eq_results boxes, hv, (havailable (by decide)).2 ?_⟩
  have hself : "Box<T>" ∈ boxes.unit.conversionClosure .selfTypeBeforeConversions
      ⟨⟨1⟩, "Box<char>", none, true,
        .record ⟨"Box<char>", [], [], some ⟨"Box", "Box<T>", ["char"]⟩⟩⟩ :=
    List.mem_eraseDups.2 (List.mem_append_right _ List.mem_cons_self)
  exact ⟨_, hself, _, hself, by decide, by decide, Or.inr boxes_compares⟩

end InteropWitness.Analysis

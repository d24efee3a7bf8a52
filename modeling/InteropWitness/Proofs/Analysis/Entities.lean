import InteropWitness.Proofs.Analysis.Relation

namespace InteropWitness

namespace StringConversion

/-- An override for this name alone, once the library namespace is put in. -/
def NamedExactly (config : Config) (name : String) : Prop :=
  ∃ o ∈ config.stringOverrides, ∃ typeName, o.matcher = .exact typeName ∧
    Namespace.expand typeName config.libraryNamespace = name

/-- What makes a declaration open an entry. -/
inductive Enters (config : Config) (inputs : Inputs) (d : Decl) : Prop
  | libraryRecord {r : RecordDecl} (hkind : d.kind = .record r) (hlibrary : d.inLibrary = true)
      (himport : inputs.imports.contains d.identity = true)
  | foreignRecord {r : RecordDecl} (hkind : d.kind = .record r) (hforeign : d.inLibrary = false)
      (hnamed : NamedExactly config d.name)
  /-- Whether it is declared in the library or not. -/
  | foundEnum {e : EnumDecl} (hkind : d.kind = .enumeration e)
      (hfound : inputs.enums.contains d.identity = true) {i : ImportClass}
      (himport : inputs.imports.get? d.identity = some i) (hcopied : i.isCopyable = true)

theorem expand_eq_exact_iff {m : RecordMatcher} {ns name : String} :
    m.expand ns = .exact name ↔
      ∃ typeName, m = .exact typeName ∧ Namespace.expand typeName ns = name := by
  cases m <;> simp [RecordMatcher.expand]

theorem isSome_exactVerdict?_iff {config : Config} {d : Decl} :
    (StringOverride.exactVerdict? config.stringTable d).isSome = true ↔
      NamedExactly config d.name := by
  rw [StringOverride.exactVerdict?, Option.isSome_iff_ne_none, ne_eq, List.getLast?_eq_none_iff,
    List.map_eq_nil_iff, List.filter_eq_nil_iff]
  simp [Config.stringTable, StringOverride.expand, expand_eq_exact_iff, NamedExactly]

section Kinds

variable {config : Config} {inputs : Inputs} {d : Decl}

theorem enters_iff_of_library {r : RecordDecl} (hkind : d.kind = .record r)
    (hlibrary : d.inLibrary = true) :
    Enters config inputs d ↔ inputs.imports.contains d.identity = true := by
  constructor
  · intro h
    cases h with
    | libraryRecord _ _ himport => exact himport
    | foreignRecord _ hforeign => simp [hlibrary] at hforeign
    | foundEnum hkind' => simp [hkind] at hkind'
  · exact fun himport => .libraryRecord hkind hlibrary himport

theorem enters_iff_of_foreign {r : RecordDecl} (hkind : d.kind = .record r)
    (hforeign : d.inLibrary = false) : Enters config inputs d ↔ NamedExactly config d.name := by
  constructor
  · intro h
    cases h with
    | libraryRecord _ hlibrary => simp [hforeign] at hlibrary
    | foreignRecord _ _ hnamed => exact hnamed
    | foundEnum hkind' => simp [hkind] at hkind'
  · exact fun hnamed => .foreignRecord hkind hforeign hnamed

theorem enters_iff_of_enum {e : EnumDecl} (hkind : d.kind = .enumeration e) :
    Enters config inputs d ↔
      (inputs.enums.contains d.identity &&
        (inputs.imports.get? d.identity).any (·.isCopyable)) = true := by
  rw [Bool.and_eq_true, Option.any_eq_true]
  constructor
  · intro h
    cases h with
    | libraryRecord hkind' => simp [hkind] at hkind'
    | foreignRecord hkind' => simp [hkind] at hkind'
    | foundEnum _ hfound himport hcopied => exact ⟨hfound, _, himport, hcopied⟩
  · intro h
    obtain ⟨hfound, i, himport, hcopied⟩ := h
    exact .foundEnum hkind hfound himport hcopied

theorem Enters.isSome_tagType? (h : Enters config inputs d) : d.tagType?.isSome = true := by
  cases h with
  | libraryRecord hkind => rw [Decl.tagType?, hkind]; rfl
  | foreignRecord hkind => rw [Decl.tagType?, hkind]; rfl
  | foundEnum hkind => rw [Decl.tagType?, hkind]; rfl

end Kinds

variable {ctx : Context}

theorem isSome_revisedByRecord_iff {d : Decl} {r : RecordDecl} (hkind : d.kind = .record r)
    (old : Option StringVerdict) :
    (revisedByRecord ctx d old).isSome = true ↔
      old.isSome = true ∨ Enters ctx.config ctx.inputs d := by
  unfold revisedByRecord
  cases hlibrary : d.inLibrary with
  | true =>
    have himport : ctx.inputs.imports.contains d.identity = (ctx.import? d.identity).isSome := rfl
    rw [enters_iff_of_library hkind hlibrary, himport, if_pos rfl]
    cases ctx.import? d.identity with
    | none => simp
    | some i =>
      simp only
      split_ifs <;> simp
  | false =>
    rw [enters_iff_of_foreign hkind hlibrary, ← isSome_exactVerdict?_iff,
      if_neg Bool.false_ne_true]
    cases StringOverride.exactVerdict? ctx.config.stringTable d <;> simp

theorem isSome_revised_iff (d : Decl) (old : Option StringVerdict) :
    (revised ctx d old).isSome = true ↔ old.isSome = true ∨ Enters ctx.config ctx.inputs d := by
  have hnever : d.tagType? = none → ¬Enters ctx.config ctx.inputs d := by
    intro hnone henters
    have htag := henters.isSome_tagType?
    rw [hnone] at htag
    cases htag
  unfold revised
  cases hkind : d.kind with
  | record r => exact isSome_revisedByRecord_iff hkind old
  | enumeration e =>
    rw [enters_iff_of_enum hkind]
    change (if (ctx.inputs.enums.contains d.identity &&
      (ctx.inputs.imports.get? d.identity).any (·.isCopyable)) = true then _ else old).isSome = true
        ↔ _
    split_ifs with h
    · simp [h]
    · simp [h]
  | function f => simp [hnever (by rw [Decl.tagType?, hkind])]
  | other => simp [hnever (by rw [Decl.tagType?, hkind])]

theorem mem_keys_enter_iff (d : Decl) (store : Store StringVerdict) (entity : Identity) :
    entity ∈ (enter ctx d store).keys ↔
      entity ∈ store.keys ∨ (d.identity = entity ∧ Enters ctx.config ctx.inputs d) := by
  rw [← OrderedMap.contains_iff, ← OrderedMap.contains_iff, OrderedMap.contains,
    OrderedMap.contains, get?_enter]
  by_cases he : entity = d.identity
  · rw [if_pos he, isSome_revised_iff, he, and_iff_right rfl]
  · rw [if_neg he, iff_self_or]
    exact fun h => absurd h.1.symm he

/-- An entry has been opened by some declaration that calls for it. -/
theorem mem_keys_opened_iff (entity : Identity) :
    entity ∈ (opened ctx).keys ↔
      ∃ d ∈ ctx.unit.decls, d.identity = entity ∧ Enters ctx.config ctx.inputs d := by
  have hfold : ∀ (decls : List Decl) (store : Store StringVerdict),
      entity ∈ (decls.foldl (fun store d => enter ctx d store) store).keys ↔
        entity ∈ store.keys ∨
          ∃ d ∈ decls, d.identity = entity ∧ Enters ctx.config ctx.inputs d := by
    intro decls
    induction decls with
    | nil => simp
    | cons d rest ih =>
      intro store
      rw [List.foldl_cons, ih, mem_keys_enter_iff, List.exists_mem_cons_iff, or_assoc]
  rw [opened, hfold]
  exact or_iff_right List.not_mem_nil

end StringConversion

namespace Analysis

variable (a : Analysis)

theorem mem_keys_relationStore_iff (relation : Relation) (entity : Identity) :
    entity ∈ (a.relationStore relation).keys ↔
      a.unit.Reports entity ∧ a.inputs.imports.contains entity = true := by
  rw [keys_relationStore]
  constructor
  · intro h
    obtain ⟨v, hv⟩ := OrderedMap.exists_get?_of_mem h
    obtain ⟨hreports, himport⟩ := Relation.get?_opened_iff.1 hv
    obtain ⟨i, hi, _⟩ := Option.map_eq_some_iff.1 himport
    exact ⟨hreports, Option.isSome_iff_exists.2 ⟨i, hi⟩⟩
  · intro h
    obtain ⟨i, hi⟩ := Option.isSome_iff_exists.1 h.2
    have himport : ((a.relationContext .equality).import? entity).map ImportClass.opening =
        some i.opening := congrArg (Option.map ImportClass.opening) hi
    exact OrderedMap.mem_keys_of_get? (Relation.get?_opened_iff.2 ⟨h.1, himport⟩)

theorem mem_keys_stringStore_iff (entity : Identity) :
    entity ∈ a.stringStore.keys ↔
      ∃ d ∈ a.unit.decls, d.identity = entity ∧ StringConversion.Enters a.config a.inputs d := by
  rw [stringStore, StringConversion.resolved, OrderedMap.keys_mapValues]
  exact StringConversion.mem_keys_opened_iff entity

/-- For every analysis: equality and ordering have results for the records and enums of the library
that have an import class, and for nothing else. String conversion has results for the records of
the library that have an import class, for the foreign records that an override names exactly, and
for the enums, of the library or foreign, that were found and can be copied. -/
theorem entities_with_results (a : Analysis) :
    ∃ r, a.run = .ok r ∧
      (∀ entity, entity ∈ r.equality.keys ↔
        a.unit.Reports entity ∧ a.inputs.imports.contains entity = true) ∧
      (∀ entity, entity ∈ r.ordering.keys ↔
        a.unit.Reports entity ∧ a.inputs.imports.contains entity = true) ∧
      ∀ entity, entity ∈ r.stringConversion.keys ↔
        ∃ d ∈ a.unit.decls, d.identity = entity ∧
          StringConversion.Enters a.config a.inputs d :=
  ⟨a.results, a.run_eq_results, a.mem_keys_relationStore_iff .equality,
    a.mem_keys_relationStore_iff .ordering, a.mem_keys_stringStore_iff⟩

/-- An enum of another library, found and imported like one of the library. -/
def foreignFlags : Analysis where
  unit :=
    { decls := [⟨⟨0⟩, "std::memory_order", none, false, .enumeration ⟨"std::memory_order", true⟩⟩]
      types := OrderedMap.ofList [("std::memory_order", .enumeration ⟨0⟩ true)]
      wellFormed := WellFormed.fault?_eq_none_iff.1 (by decide) }
  inputs := ⟨.ofList [(⟨⟨0⟩⟩, .value)], .ofList [(⟨⟨0⟩⟩, .empty true)]⟩
  config := .default

/-- It has a result, though no declaration of the unit is of the library or a record. -/
theorem foreignFlags_has_result :
    foreignFlags.config.fault? = none ∧
      (∀ d ∈ foreignFlags.unit.decls, d.inLibrary = false ∧ d.record? = none) ∧
      ∃ r, foreignFlags.run = .ok r ∧ r.stringConversion.get? ⟨⟨0⟩⟩ = some .enumCases := by
  refine ⟨by decide +kernel, by decide, _, run_eq_results _, ?_⟩
  decide +kernel

end Analysis

end InteropWitness

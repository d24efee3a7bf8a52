import InteropWitness.Proofs.SourceUnit.Inheritance

namespace InteropWitness.SourceUnit

/-- By the table of types, `d` is the declaration of the record or enum type. -/
def Tags (u : SourceUnit) (ty : TypeKey) (d : Decl) : Prop :=
  ∃ id, (u.typeKind? ty = some (.record id) ∨
    ∃ isScoped, u.typeKind? ty = some (.enumeration id isScoped)) ∧ u.decl? id = some d

/-- The declaration of the type is a specialization, and this is one of its arguments. -/
def TakesArgument (u : SourceUnit) (ty arg : TypeKey) : Prop :=
  ∃ d r s, u.Tags ty d ∧ d.kind = .record r ∧ r.specialization = some s ∧ arg ∈ s.args

/-- Template arguments, taken any number of times, lead from the type to one that is declared in the
library. -/
def LeadsToLibrary (u : SourceUnit) (ty : TypeKey) : Prop :=
  ∃ arg d, Relation.ReflTransGen u.TakesArgument ty arg ∧ u.Tags arg d ∧ d.inLibrary = true

/-- The number of template arguments in the declarations of all types. -/
def argumentCount (u : SourceUnit) : Nat :=
  (u.types.keys.flatMap u.templateArguments).length

variable {u : SourceUnit} {ty arg : TypeKey} {d : Decl}

theorem tagDecl?_eq_some_iff : u.tagDecl? ty = some d ↔ u.Tags ty d := by
  simp only [tagDecl?, Option.bind_eq_some_iff, Tags]
  constructor
  · intro h
    obtain ⟨kind, hkind, id, hid, hd⟩ := h
    cases kind with
    | record _ =>
      cases hid
      exact ⟨id, .inl hkind, hd⟩
    | enumeration _ isScoped =>
      cases hid
      exact ⟨id, .inr ⟨isScoped, hkind⟩, hd⟩
    | builtin | dependent | other => cases hid
  · intro h
    obtain ⟨id, hkind | ⟨_, hkind⟩, hd⟩ := h
    · exact ⟨_, hkind, id, rfl, hd⟩
    · exact ⟨_, hkind, id, rfl, hd⟩

theorem Tags.mem_keys (h : u.Tags ty d) : ty ∈ u.types.keys := by
  obtain ⟨_, hkind | ⟨_, hkind⟩, _⟩ := h
  · exact OrderedMap.mem_keys_of_get? hkind
  · exact OrderedMap.mem_keys_of_get? hkind

theorem isLibraryType_iff : u.isLibraryType ty = true ↔ ∃ d, u.Tags ty d ∧ d.inLibrary = true := by
  simp only [isLibraryType, Option.any_eq_true, tagDecl?_eq_some_iff]

theorem mem_templateArguments_iff : arg ∈ u.templateArguments ty ↔ u.TakesArgument ty arg := by
  have hargs : arg ∈ u.templateArguments ty ↔
      ∃ s, (u.tagDecl? ty).bind (·.specialization?) = some s ∧ arg ∈ s.args := by
    rw [templateArguments]
    cases (u.tagDecl? ty).bind (·.specialization?) <;> simp
  rw [hargs]
  simp only [Option.bind_eq_some_iff, tagDecl?_eq_some_iff, Decl.specialization?_eq_some_iff,
    TakesArgument]
  constructor
  · intro h
    obtain ⟨s, ⟨d, htags, r, hkind, hs⟩, harg⟩ := h
    exact ⟨d, r, s, htags, hkind, hs, harg⟩
  · intro h
    obtain ⟨d, r, s, htags, hkind, hs, harg⟩ := h
    exact ⟨s, ⟨d, htags, r, hkind, hs⟩, harg⟩

theorem edge_templateArguments (u : SourceUnit) : Edge u.templateArguments = u.TakesArgument := by
  funext ty arg
  exact propext mem_templateArguments_iff

theorem templateArguments_subset_keys :
    ∀ ty ∈ u.types.keys, ∀ arg ∈ u.templateArguments ty, arg ∈ u.types.keys := by
  intro ty _ arg harg
  obtain ⟨d, r, s, ⟨_, _, hd⟩, hkind, hs, harg⟩ := mem_templateArguments_iff.1 harg
  exact u.wellFormed.registered d (mem_of_decl? hd) arg
    (Decl.mem_referencedTypes_iff.2 (.argument hkind hs harg))

/-- A type without a declaration leads nowhere. -/
theorem LeadsToLibrary.mem_keys (h : u.LeadsToLibrary ty) : ty ∈ u.types.keys := by
  obtain ⟨arg, d, hpath, htags, _⟩ := h
  rcases hpath.cases_head with rfl | ⟨_, ⟨_, _, _, hfirst, _⟩, _⟩
  · exact htags.mem_keys
  · exact hfirst.mem_keys

theorem reaches_isLibraryType_iff :
    reaches u.isLibraryType u.templateArguments [ty] u.types.keys = true ↔ u.LeadsToLibrary ty := by
  by_cases hmem : ty ∈ u.types.keys
  · rw [reaches_iff_reflTransGen templateArguments_subset_keys hmem, edge_templateArguments]
    simp only [isLibraryType_iff, LeadsToLibrary]
    constructor
    · intro h
      obtain ⟨arg, ⟨d, htags, hd⟩, hpath⟩ := h
      exact ⟨arg, d, hpath, htags, hd⟩
    · intro h
      obtain ⟨arg, d, hpath, htags, hd⟩ := h
      exact ⟨arg, ⟨d, htags, hd⟩, hpath⟩
  · rw [reaches, if_neg hmem, reaches]
    exact iff_of_false Bool.false_ne_true fun h => hmem h.mem_keys

theorem involvesLibrary_iff :
    u.involvesLibrary d = true ↔
      d.inLibrary = true ∨ ∃ ty, d.tagType? = some ty ∧ u.LeadsToLibrary ty := by
  simp only [involvesLibrary, Bool.or_eq_true, Option.any_eq_true, reaches_isLibraryType_iff]

/-- For every unit and every declaration. It involves the library exactly if it is in the library,
or if it has a type from which template arguments, taken any number of times, lead to a type that is
declared there. The search for one ends on arguments that lead in circles too, with at most one turn
for each argument in the table and one for the type. Declarations of one type, neither of them in
the library, involve it or not alike. -/
theorem involvesLibrary_is_reachability (u : SourceUnit) (d : Decl) :
    (u.involvesLibrary d = true ↔
      d.inLibrary = true ∨ ∃ ty, d.tagType? = some ty ∧ u.LeadsToLibrary ty) ∧
    (d.inLibrary = false → ∀ ty, d.tagType? = some ty →
      ∃ n ≤ 1 + u.argumentCount, ∃ s,
        PathTo (Turn u.isLibraryType u.templateArguments) ([ty], u.types.keys) n s ∧
          Ends u.isLibraryType s (u.involvesLibrary d)) ∧
    ∀ e : Decl, d.inLibrary = false → e.inLibrary = false → d.tagType? = e.tagType? →
      u.involvesLibrary d = u.involvesLibrary e := by
  refine ⟨involvesLibrary_iff, fun hd ty hty => ?_, fun e hd he hty => ?_⟩
  · rw [involvesLibrary, hd, hty, Bool.false_or, Option.any_some]
    exact exists_turns u.isLibraryType u.templateArguments [ty] u.types.keys
  · rw [involvesLibrary, involvesLibrary, hd, he, hty]

/-- Two foreign specializations that are arguments of each other, one of them with an argument from
the library too, and a third that is its own argument. -/
def rings : SourceUnit where
  decls :=
    [⟨⟨0⟩, "Path", none, true, .record ⟨"Path", [], [], none⟩⟩,
      ⟨⟨1⟩, "Left", none, false, .record ⟨"Left", [], [], some ⟨"Left", "Left<T>", ["Right"]⟩⟩⟩,
      ⟨⟨2⟩, "Right", none, false,
        .record ⟨"Right", [], [], some ⟨"Right", "Right<T>", ["Left", "Path"]⟩⟩⟩,
      ⟨⟨3⟩, "Ring", none, false, .record ⟨"Ring", [], [], some ⟨"Ring", "Ring<T>", ["Ring"]⟩⟩⟩]
  types := OrderedMap.ofList [("Path", .record ⟨0⟩), ("Left", .record ⟨1⟩), ("Right", .record ⟨2⟩),
    ("Ring", .record ⟨3⟩), ("Left<T>", .dependent), ("Right<T>", .dependent),
    ("Ring<T>", .dependent)]
  wellFormed := WellFormed.fault?_eq_none_iff.1 (by decide)

example : rings.decls.map rings.involvesLibrary = [true, true, true, false] := by cbv

end InteropWitness.SourceUnit

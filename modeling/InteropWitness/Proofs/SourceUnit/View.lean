import InteropWitness.Proofs.SourceUnit.Acceptance

namespace InteropWitness

/-- What stands for the records and functions that are declared; a function may have nothing that
stands for it. -/
structure View where
  record : RecordDecl → RecordDecl
  function : DeclId → FunctionDecl → Option FunctionDecl
  ty_record : ∀ r, (record r).ty = r.ty
  specialization_record : ∀ r, (record r).specialization = r.specialization
  bases_record : ∀ r, (record r).bases ⊆ r.bases
  visibleBases_record : ∀ r,
    (record r).bases.filter (·.access.isVisible) = r.bases.filter (·.access.isVisible)
  conversions_record : ∀ r, (record r).conversions ⊆ r.conversions
  appliedConversions_record : ∀ r, (record r).appliedConversions = r.appliedConversions
  signature_function : ∀ id f g, function id f = some g →
    g.params ⊆ f.params ∧ g.returnType = f.returnType ∧ g.method = f.method

namespace View

/-- The view of a unit in which functions are edited. -/
def editing (edit : DeclId → FunctionDecl → FunctionDecl)
    (signature : ∀ id f, (edit id f).params ⊆ f.params ∧ (edit id f).returnType = f.returnType ∧
      (edit id f).method = f.method) : View where
  record r := r
  function id f := some (edit id f)
  ty_record _ := rfl
  specialization_record _ := rfl
  bases_record _ := List.Subset.refl _
  visibleBases_record _ := rfl
  conversions_record _ := List.Subset.refl _
  appliedConversions_record _ := rfl
  signature_function id f g h := by
    cases h
    exact signature id f

variable (v : View)

def kind (id : DeclId) : DeclKind → DeclKind
  | .record r => .record (v.record r)
  | .function f => (v.function id f).elim .other .function
  | .enumeration e => .enumeration e
  | .other => .other

def decl (d : Decl) : Decl := { d with kind := v.kind d.id d.kind }

@[simp] theorem id_decl (d : Decl) : (v.decl d).id = d.id := rfl

@[simp] theorem inLibrary_decl (d : Decl) : (v.decl d).inLibrary = d.inLibrary := rfl

@[simp] theorem identity_decl (d : Decl) : (v.decl d).identity = d.identity := rfl

@[simp] theorem record?_decl (d : Decl) : (v.decl d).record? = d.record?.map v.record := by
  obtain ⟨id, _, _, _, kind⟩ := d
  cases kind with
  | function f => cases hf : v.function id f <;> simp [decl, View.kind, Decl.record?, hf]
  | record | enumeration | other => rfl

@[simp] theorem function?_decl (d : Decl) :
    (v.decl d).function? = d.function?.bind (v.function d.id) := by
  obtain ⟨id, _, _, _, kind⟩ := d
  cases kind with
  | function f => cases hf : v.function id f <;> simp [decl, View.kind, Decl.function?, hf]
  | record | enumeration | other => rfl

@[simp] theorem tagType?_decl (d : Decl) : (v.decl d).tagType? = d.tagType? := by
  obtain ⟨id, _, _, _, kind⟩ := d
  cases kind with
  | record r => simp [decl, View.kind, Decl.tagType?, v.ty_record]
  | function f => cases hf : v.function id f <;> simp [decl, View.kind, Decl.tagType?, hf]
  | enumeration | other => rfl

@[simp] theorem specialization?_decl (d : Decl) :
    (v.decl d).specialization? = d.specialization? := by
  rw [Decl.specialization?, record?_decl, Decl.specialization?]
  cases d.record? with
  | none => rfl
  | some r => exact v.specialization_record r

theorem refersTo_of_decl {d : Decl} {ty : TypeKey} (h : (v.decl d).RefersTo ty) :
    d.RefersTo ty := by
  obtain ⟨id, name, definition, inLibrary, kind⟩ := d
  cases kind with
  | record r =>
    cases h with
    | ownRecord h =>
      cases h
      rw [v.ty_record]
      exact .ownRecord (r := r) rfl
    | base h hb =>
      cases h
      exact .base (r := r) rfl (v.bases_record r hb)
    | conversion h hc =>
      cases h
      exact .conversion (r := r) rfl (v.conversions_record r hc)
    | selfType h hs =>
      cases h
      rw [v.specialization_record] at hs
      exact .selfType (r := r) rfl hs
    | argument h hs hty =>
      cases h
      rw [v.specialization_record] at hs
      exact .argument (r := r) rfl hs hty
    | ownEnum h | parameter h | result h | parent h => cases h
  | enumeration e => exact h
  | function f =>
    cases hf : v.function id f with
    | none =>
      have hother :
          (v.decl ⟨id, name, definition, inLibrary, .function f⟩).referencedTypes = [] := by
        simp [decl, View.kind, hf, Decl.referencedTypes]
      rw [← Decl.mem_referencedTypes_iff, hother] at h
      cases h
    | some g =>
      obtain ⟨hparams, hreturn, hmethod⟩ := v.signature_function id f g hf
      have hdecl : v.decl ⟨id, name, definition, inLibrary, .function f⟩ =
          ⟨id, name, definition, inLibrary, .function g⟩ := by
        simp [decl, View.kind, hf]
      rw [hdecl] at h
      cases h with
      | parameter h hq =>
        cases h
        exact .parameter (f := f) rfl (hparams hq)
      | result h =>
        cases h
        rw [hreturn]
        exact .result (f := f) rfl
      | parent h hm =>
        cases h
        rw [hmethod] at hm
        exact .parent (f := f) rfl hm
      | ownRecord h | base h | conversion h | selfType h | argument h | ownEnum h => cases h
  | other => exact h

end View

namespace SourceUnit

theorem wellFormed_viewed {u : SourceUnit} (v : View) {types : TypeTable}
    (h : ∀ ty, u.types.get? ty = types.get? ty) : WellFormed (u.decls.map v.decl) types := by
  refine ⟨?_, ?_, ?_, ?_⟩
  · intro i d hd
    rw [List.getElem?_map] at hd
    obtain ⟨d₀, hd₀, rfl⟩ := Option.map_eq_some_iff.1 hd
    exact u.wellFormed.dense i d₀ hd₀
  · intro key kind target hentry htarget
    rw [← OrderedMap.get?_eq_some_iff, ← h, OrderedMap.get?_eq_some_iff] at hentry
    rw [List.length_map]
    exact u.wellFormed.tagged key kind target hentry htarget
  · intro d hd target htarget
    obtain ⟨d₀, hd₀, rfl⟩ := List.mem_map.1 hd
    obtain ⟨e, he, hself⟩ := u.wellFormed.defined d₀ hd₀ target htarget
    exact ⟨v.decl e, by rw [List.getElem?_map, he]; rfl, hself⟩
  · intro d hd ty hty
    obtain ⟨d₀, hd₀, rfl⟩ := List.mem_map.1 hd
    have hrefers := v.refersTo_of_decl (Decl.mem_referencedTypes_iff.1 hty)
    have hkeys := u.wellFormed.registered d₀ hd₀ ty (Decl.mem_referencedTypes_iff.2 hrefers)
    obtain ⟨kind, hkind⟩ := OrderedMap.exists_get?_of_mem hkeys
    rw [h] at hkind
    exact OrderedMap.mem_keys_of_get? hkind

/-- The view of a unit, with its types possibly in another order. -/
def viewed (u : SourceUnit) (v : View) {types : TypeTable}
    (h : ∀ ty, u.types.get? ty = types.get? ty) : SourceUnit where
  decls := u.decls.map v.decl
  types := types
  wellFormed := wellFormed_viewed v h

section Viewed

variable {u : SourceUnit} {v : View} {types : TypeTable}
  (h : ∀ ty, u.types.get? ty = types.get? ty)

@[simp] theorem decls_viewed : (u.viewed v h).decls = u.decls.map v.decl := rfl

@[simp] theorem typeKind?_viewed (ty : TypeKey) : (u.viewed v h).typeKind? ty = u.typeKind? ty :=
  (h ty).symm

@[simp] theorem isBool_viewed (ty : TypeKey) : (u.viewed v h).isBool ty = u.isBool ty := by
  rw [isBool, typeKind?_viewed, isBool]

@[simp] theorem isBuiltin_viewed (ty : TypeKey) : (u.viewed v h).isBuiltin ty = u.isBuiltin ty := by
  rw [isBuiltin, typeKind?_viewed, isBuiltin]

@[simp] theorem isArithmetic_viewed (ty : TypeKey) :
    (u.viewed v h).isArithmetic ty = u.isArithmetic ty := by
  rw [isArithmetic, typeKind?_viewed, isArithmetic]

@[simp] theorem ids_viewed : (u.viewed v h).ids = u.ids := by
  rw [ids, decls_viewed, List.map_map, ids]
  rfl

@[simp] theorem decl?_viewed (id : DeclId) : (u.viewed v h).decl? id = (u.decl? id).map v.decl :=
  List.getElem?_map

@[simp] theorem identity?_viewed (id : DeclId) :
    (u.viewed v h).identity? id = u.identity? id := by
  rw [identity?, decl?_viewed, Option.map_map, identity?]
  rfl

@[simp] theorem defining?_viewed (entity : Identity) :
    (u.viewed v h).defining? entity = (u.defining? entity).map v.decl := decl?_viewed h entity.decl

@[simp] theorem named?_viewed (name : String) :
    (u.viewed v h).named? name = (u.named? name).map v.decl := by
  rw [named?, decls_viewed, List.find?_map, named?]
  rfl

@[simp] theorem tagDecl?_viewed (ty : TypeKey) :
    (u.viewed v h).tagDecl? ty = (u.tagDecl? ty).map v.decl := by
  rw [tagDecl?, typeKind?_viewed, tagDecl?]
  cases u.typeKind? ty with
  | none => rfl
  | some kind =>
    rw [Option.bind_some, Option.bind_some]
    cases kind.tagDecl? with
    | none => rfl
    | some id => exact decl?_viewed h id

@[simp] theorem definingRecord?_viewed (id : DeclId) :
    (u.viewed v h).definingRecord? id =
      (u.definingRecord? id).map fun e => (v.decl e.1, v.record e.2) := by
  rw [definingRecord?, identity?_viewed, definingRecord?]
  cases u.identity? id with
  | none => rfl
  | some entity =>
    rw [Option.bind_some, Option.bind_some, defining?_viewed]
    cases u.defining? entity with
    | none => rfl
    | some d =>
      rw [Option.map_some, Option.bind_some, Option.bind_some, View.record?_decl]
      cases d.record? <;> rfl

@[simp] theorem recordOfType?_viewed (ty : TypeKey) :
    (u.viewed v h).recordOfType? ty =
      (u.recordOfType? ty).map fun e => (v.decl e.1, v.record e.2) := by
  rw [recordOfType?, typeKind?_viewed, recordOfType?]
  split
  · exact definingRecord?_viewed h _
  · rfl

@[simp] theorem injectedSelfType?_viewed (ty : TypeKey) :
    (u.viewed v h).injectedSelfType? ty = u.injectedSelfType? ty := by
  rw [injectedSelfType?, recordOfType?_viewed, injectedSelfType?]
  cases u.recordOfType? ty with
  | none => rfl
  | some e => simp [v.specialization_record]

@[simp] theorem baseRecords_viewed : (u.viewed v h).baseRecords true = u.baseRecords true := by
  funext id
  rw [baseRecords, definingRecord?_viewed, baseRecords]
  cases u.definingRecord? id with
  | none => rfl
  | some e =>
    simp only [Option.map_some, Bool.not_true, Bool.false_or, v.visibleBases_record,
      recordOfType?_viewed, Option.map_map]
    rfl

@[simp] theorem visibleSupertypes_viewed (id : DeclId) :
    (u.viewed v h).visibleSupertypes id = u.visibleSupertypes id := by
  rw [visibleSupertypes, definingRecord?_viewed, baseRecords_viewed, ids_viewed, visibleSupertypes]
  cases u.definingRecord? id <;> rfl

@[simp] theorem isDerived_viewed (derived base : DeclId) :
    (u.viewed v h).isDerived derived base true = u.isDerived derived base true := by
  rw [isDerived, identity?_viewed, identity?_viewed, baseRecords_viewed, ids_viewed, isDerived]

@[simp] theorem involvesLibrary_viewed (d : Decl) :
    (u.viewed v h).involvesLibrary (v.decl d) = u.involvesLibrary d := by
  have hsought : (u.viewed v h).isLibraryType = u.isLibraryType := by
    funext ty
    rw [isLibraryType, tagDecl?_viewed, Option.any_map, isLibraryType]
    rfl
  have hnext : (u.viewed v h).templateArguments = u.templateArguments := by
    funext ty
    rw [templateArguments, tagDecl?_viewed, templateArguments]
    cases u.tagDecl? ty with
    | none => rfl
    | some e =>
      rw [Option.map_some, Option.bind_some, Option.bind_some, View.specialization?_decl]
  have hkeys : types.keys.Perm u.types.keys := by
    refine (List.perm_ext_iff_of_nodup types.nodup u.types.nodup).2 fun ty => ?_
    rw [← OrderedMap.keys, ← OrderedMap.keys, ← OrderedMap.contains_iff, ← OrderedMap.contains_iff,
      OrderedMap.contains, OrderedMap.contains, h]
  rw [involvesLibrary, View.inLibrary_decl, View.tagType?_decl, hsought, hnext, involvesLibrary]
  congr 2
  funext ty
  exact reaches_of_perm hkeys

@[simp] theorem supertypeKeys_viewed (id : DeclId) :
    (u.viewed v h).supertypeKeys id = u.supertypeKeys id := by
  rw [supertypeKeys, visibleSupertypes_viewed, supertypeKeys]
  refine List.filterMap_congr fun id _ => ?_
  rw [decl?_viewed]
  cases u.decl? id with
  | none => rfl
  | some d => exact v.tagType?_decl d

@[simp] theorem conversionClosure_viewed (order : ClosureOrder) (d : Decl) :
    (u.viewed v h).conversionClosure order (v.decl d) = u.conversionClosure order d := by
  obtain ⟨id, name, definition, inLibrary, kind⟩ := d
  cases kind with
  | record r =>
    simp only [conversionClosure, View.decl, View.kind, supertypeKeys_viewed,
      v.appliedConversions_record, v.specialization_record]
  | function f =>
    cases hf : v.function id f <;> simp [conversionClosure, View.decl, View.kind, hf]
  | enumeration | other => rfl

end Viewed

end SourceUnit

section Overrides

variable {u : SourceUnit} {v : View} {types : TypeTable}
  (h : ∀ ty, u.types.get? ty = types.get? ty)

theorem RecordMatcher.inherits_viewed (d : Decl) (base : String) :
    inherits (u.viewed v h) (v.decl d) base = inherits u d base := by
  rw [inherits, SourceUnit.named?_viewed, inherits]
  cases u.named? base with
  | none => rfl
  | some b => simp

theorem RecordMatcher.covers_viewed (d : Decl) (m : RecordMatcher) :
    m.covers (u.viewed v h) (v.decl d) = m.covers u d := by
  cases m with
  | selfOrSubclass base => exact inherits_viewed h d base
  | handleOf template base =>
    rw [covers, covers, View.specialization?_decl]
    split
    · next name _ arg _ =>
      rw [SourceUnit.recordOfType?_viewed, Option.any_map]
      congr 2
      funext e
      exact inherits_viewed h e.1 base
    · rfl
  | exact typeName => rfl

theorem StringOverride.matching_viewed (table : List StringOverride) (d : Decl) :
    matching table (u.viewed v h) (v.decl d) = matching table u d := by
  simp only [matching, RecordMatcher.covers_viewed]

end Overrides

end InteropWitness

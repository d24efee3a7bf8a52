import InteropWitness.Proofs.Json.Decode
import InteropWitness.Proofs.Json.RoundTrip
import InteropWitness.Proofs.SourceUnit.Acceptance
import InteropWitness.SourceUnit.Dump

namespace InteropWitness

open Json

theorem nullable?_optionToJson {α : Type} {encode : α → Json} {decode : Json → Option α}
    (h : ∀ a, decode (encode a) = some a) (hne : ∀ a, encode a ≠ null) (o : Option α) :
    nullable? decode (optionToJson encode o) = some o := by
  cases o with
  | none => rfl
  | some a => rw [optionToJson, nullable?_of_ne (hne a), h, Option.map_some]

theorem isStorable_optionToJson {α : Type} {encode : α → Json} {levels : Nat}
    (h : ∀ a, (encode a).isStorable levels = true) (o : Option α) :
    (optionToJson encode o).isStorable levels = true := by
  cases o with
  | none => rfl
  | some a => exact h a

namespace DeclId

theorem ofJson?_toJson (id : DeclId) : ofJson? id.toJson = some id := by
  have hindex : id.index < UInt32.size := id.word.toNat_lt_size
  have hid : ofIndex id.index = id := by
    rw [ofIndex, index, UInt32.ofNat_toNat]
  rw [ofJson?, toJson, natural?_ofNat hindex, Option.map_some, hid]

theorem isStorable_toJson (id : DeclId) (levels : Nat) : id.toJson.isStorable levels = true := by
  have hindex : id.index < UInt32.size := id.word.toNat_lt_size
  exact isStorable_ofNat (Nat.lt_trans hindex (by decide)) levels

end DeclId

section Spellings

theorem BuiltinKind.ofJson?_spelling (k : BuiltinKind) : ofJson? (ofText k.spelling) = some k := by
  cases k <;> decide

theorem Access.ofJson?_spelling (a : Access) : ofJson? (ofText a.spelling) = some a := by
  cases a <;> decide

theorem Reference.ofJson?_spelling (r : Reference) : ofJson? (ofText r.spelling) = some r := by
  cases r <;> decide

theorem Operator.ofJson?_spelling (o : Operator) : ofJson? (ofText o.spelling) = some o := by
  cases o <;> decide

end Spellings

section Parts

variable (levels : Nat)

theorem QualType.ofJson?_toJson (q : QualType) : ofJson? q.toJson = some q := by
  simp [ofJson?, toJson, required?, withDefault?, given, Reference.ofJson?_spelling]

theorem QualType.isStorable_toJson (q : QualType) : q.toJson.isStorable (levels + 1) = true := by
  apply isStorable_record
  simp

theorem BaseSpecifier.ofJson?_toJson (b : BaseSpecifier) : ofJson? b.toJson = some b := by
  simp [ofJson?, toJson, required?, given, Access.ofJson?_spelling]

theorem BaseSpecifier.isStorable_toJson (b : BaseSpecifier) :
    b.toJson.isStorable (levels + 1) = true := by
  apply isStorable_record
  simp

theorem ConversionOperator.ofJson?_toJson (c : ConversionOperator) : ofJson? c.toJson = some c := by
  have hcount : natural? UInt64.size (Json.ofNat c.paramCount.toNat) = some c.paramCount.toNat :=
    natural?_ofNat c.paramCount.toNat_lt_size
  simp [ofJson?, toJson, required?, withDefault?, given, QualType.ofJson?_toJson,
    Access.ofJson?_spelling, hcount]

theorem ConversionOperator.isStorable_toJson (c : ConversionOperator) :
    c.toJson.isStorable (levels + 2) = true := by
  have hcount := isStorable_ofNat c.paramCount.toNat_lt_size (levels + 1)
  apply isStorable_record
  simp [QualType.isStorable_toJson, hcount]

theorem Specialization.ofJson?_toJson (s : Specialization) : ofJson? s.toJson = some s := by
  have hargs : list? text? (array (s.args.map ofText)) = some s.args :=
    list?_map text?_ofText s.args
  simp [ofJson?, toJson, required?, withDefault?, given, hargs]

theorem Specialization.isStorable_toJson (s : Specialization) :
    s.toJson.isStorable (levels + 2) = true := by
  have hargs := isStorable_array_map (isStorable_ofText levels) s.args
  apply isStorable_record
  simp [hargs]

theorem MethodInfo.ofJson?_toJson (m : MethodInfo) : ofJson? m.toJson = some m := by
  simp [ofJson?, toJson, required?, withDefault?, given]

theorem MethodInfo.isStorable_toJson (m : MethodInfo) :
    m.toJson.isStorable (levels + 1) = true := by
  apply isStorable_record
  simp

end Parts

namespace DeclKind

/-- The members can stand beside the tag of a kind: none of them is a tag, and they nest at most
three deep. -/
structure Taggable (members : List (String × Json)) : Prop where
  untagged : given "decl" members = []
  storable : ∀ levels, ∀ m ∈ members, m.2.isStorable (levels + 3) = true

theorem taggable_record (r : RecordDecl) : Taggable (recordMembers r) := by
  refine ⟨by simp [recordMembers, given], fun levels => ?_⟩
  have hbases := isStorable_array_map (BaseSpecifier.isStorable_toJson (levels + 1)) r.bases
  have hconversions := isStorable_array_map (ConversionOperator.isStorable_toJson levels)
    r.conversions
  have hspec := isStorable_optionToJson (Specialization.isStorable_toJson (levels + 1))
    r.specialization
  simp only [recordMembers, List.forall_mem_cons]
  exact ⟨rfl, hbases, hconversions, hspec, by simp⟩

theorem taggable_enum (e : EnumDecl) : Taggable (enumMembers e) :=
  ⟨by simp [enumMembers, given], by simp [enumMembers]⟩

theorem taggable_function (f : FunctionDecl) : Taggable (functionMembers f) := by
  refine ⟨by simp [functionMembers, given], fun levels => ?_⟩
  have hoperator : (optionToJson (fun o => ofText (Operator.spelling o)) f.operator).isStorable
      (levels + 3) = true :=
    isStorable_optionToJson (fun o => isStorable_ofText _ o.spelling) f.operator
  have hparams := isStorable_array_map (QualType.isStorable_toJson (levels + 1)) f.params
  have hreturn := f.returnType.isStorable_toJson (levels + 2)
  have hmethod := isStorable_optionToJson (MethodInfo.isStorable_toJson (levels + 2)) f.method
  simp only [functionMembers, List.forall_mem_cons]
  exact ⟨hoperator, hparams, hreturn, hmethod, rfl, rfl, rfl, rfl, by simp⟩

theorem ofJson?_tagged (tag : String) {members : List (String × Json)} (h : Taggable members) :
    ofJson? (Json.record (("decl", ofText tag) :: members)) =
      ofMembers? tag (("decl", ofText tag) :: members) := by
  have hstored : storedMembers? level "decl" (Json.record (("decl", ofText tag) :: members)) =
      some (("decl", ofText tag) :: members) := by
    apply storedMembers?_record
    exact List.forall_mem_cons.2 ⟨Or.inl rfl, fun m hm => Or.inr (h.storable 120 m hm)⟩
  have htag : required? (("decl", ofText tag) :: members) "decl" text? = some tag := by
    have hgiven : given "decl" (("decl", ofText tag) :: members) = [ofText tag] := by
      have huntagged := h.untagged
      rw [given] at huntagged ⊢
      simp [huntagged]
    rw [required?, hgiven]
    rfl
  change (storedMembers? level "decl" (Json.record (("decl", ofText tag) :: members))).bind
    (fun members => (required? members "decl" text?).bind fun tag => ofMembers? tag members) = _
  rw [hstored, Option.bind_some, htag, Option.bind_some]

theorem ofJson?_toJson (kind : DeclKind) : ofJson? kind.toJson = some kind := by
  cases kind with
  | record r =>
    have hbases : list? BaseSpecifier.ofJson? (array (r.bases.map BaseSpecifier.toJson)) =
        some r.bases := list?_map BaseSpecifier.ofJson?_toJson r.bases
    have hconversions : list? ConversionOperator.ofJson?
        (array (r.conversions.map ConversionOperator.toJson)) = some r.conversions :=
      list?_map ConversionOperator.ofJson?_toJson r.conversions
    have hspec := nullable?_optionToJson Specialization.ofJson?_toJson
      (fun s => by simp [Specialization.toJson, Json.record]) r.specialization
    rw [toJson, ofJson?_tagged "record" (taggable_record r)]
    simp [ofMembers?, recordOfMembers?, recordMembers, required?, withDefault?, given, hbases,
      hconversions, hspec]
  | enumeration e =>
    rw [toJson, ofJson?_tagged "enum" (taggable_enum e)]
    simp [ofMembers?, enumOfMembers?, enumMembers, required?, withDefault?, given]
  | function f =>
    have hoperator : nullable? Operator.ofJson?
        (optionToJson (fun o => ofText (Operator.spelling o)) f.operator) = some f.operator :=
      nullable?_optionToJson Operator.ofJson?_spelling (fun o => by simp [ofText]) f.operator
    have hparams : list? QualType.ofJson? (array (f.params.map QualType.toJson)) = some f.params :=
      list?_map QualType.ofJson?_toJson f.params
    have hmethod := nullable?_optionToJson MethodInfo.ofJson?_toJson
      (fun m => by simp [MethodInfo.toJson, Json.record]) f.method
    rw [toJson, ofJson?_tagged "function" (taggable_function f)]
    simp [ofMembers?, functionOfMembers?, functionMembers, required?, withDefault?, given,
      hoperator, hparams, hmethod, QualType.ofJson?_toJson, Access.ofJson?_spelling]
  | other => rfl

end DeclKind

theorem Decl.ofJson?_toJson (d : Decl) : ofJson? d.toJson = some d := by
  have hdefinition := nullable?_optionToJson DeclId.ofJson?_toJson
    (fun id => by simp [DeclId.toJson, Json.ofNat]) d.definition
  simp [ofJson?, toJson, required?, withDefault?, given, DeclId.ofJson?_toJson, hdefinition,
    DeclKind.ofJson?_toJson]

namespace TypeInfo

theorem isStorable_of_mem_kindMembers (kind : TypeKind) (levels : Nat) :
    ∀ m ∈ kindMembers kind, m.2.isStorable levels = true := by
  cases kind <;> simp [kindMembers, DeclId.isStorable_toJson]

theorem kindOfMembers?_kindMembers (key : String) (kind : TypeKind) :
    kindOfMembers? (("key", ofText key) :: kindMembers kind) = some kind := by
  cases kind <;> simp [kindOfMembers?, kindMembers, required?, given, tags,
    BuiltinKind.ofJson?_spelling, DeclId.ofJson?_toJson]

theorem ofJson?_toJson (t : TypeInfo) : ofJson? t.toJson = some t := by
  have hstored : storedMembers? 3 "key" t.toJson =
      some (("key", ofText t.key) :: kindMembers t.kind) := by
    apply storedMembers?_record
    exact List.forall_mem_cons.2
      ⟨Or.inl rfl, fun m hm => Or.inr (isStorable_of_mem_kindMembers t.kind _ m hm)⟩
  have hkey : required? (("key", ofText t.key) :: kindMembers t.kind) "key" text? = some t.key := by
    obtain ⟨key, kind⟩ := t
    cases kind <;> simp [required?, given, kindMembers]
  simp [ofJson?, hstored, hkey, kindOfMembers?_kindMembers]

end TypeInfo

namespace SourceUnit

theorem partsOfJson?_toJson (u : SourceUnit) :
    partsOfJson? u.toJson = some (u.decls, u.types.entries.map fun e => ⟨e.1, e.2⟩) := by
  have hdecls : list? Decl.ofJson? (array (u.decls.map Decl.toJson)) = some u.decls :=
    list?_map Decl.ofJson?_toJson u.decls
  have htypes : list? TypeInfo.ofJson?
      (array (u.types.entries.map fun e => TypeInfo.toJson ⟨e.1, e.2⟩)) =
        some (u.types.entries.map fun e => ⟨e.1, e.2⟩) := by
    have hmap := list?_map TypeInfo.ofJson?_toJson (u.types.entries.map fun e => ⟨e.1, e.2⟩)
    rwa [List.map_map] at hmap
  simp [partsOfJson?, toJson, required?, given, hdecls, htypes]

/-- The dump of a unit is a text of its JSON form, and loading it gives the unit back. -/
theorem load_dump (u : SourceUnit) : parse? u.dump = some u.toJson ∧ load u.dump = .ok u := by
  have hparse : parse? u.dump = some u.toJson := parse?_print u.toJson
  refine ⟨hparse, ?_⟩
  rw [load, hparse, Option.bind_some, partsOfJson?_toJson]
  exact assemble_eq_ok_iff.2 ⟨TypeTable.ofList_entries u.types, rfl⟩

end SourceUnit

end InteropWitness

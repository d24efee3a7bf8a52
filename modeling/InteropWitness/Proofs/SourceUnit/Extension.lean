import InteropWitness.Proofs.OrderedMap
import InteropWitness.Proofs.SourceUnit.Identity
import Mathlib.Data.List.Basic

namespace InteropWitness

namespace SourceUnit

/-- `v` has the types of `u` and starts with its declarations. Only names that `u` has are names of
further records. -/
structure ExtendedBy (u v : SourceUnit) : Prop where
  types : v.types = u.types
  decls : u.decls <+: v.decls
  named : ∀ d ∈ v.decls, d.record?.isSome = true → ∃ e ∈ u.decls, e.name = d.name

/-- The id counts a declaration of the unit. -/
def Has (u : SourceUnit) (id : DeclId) : Prop := id.index < u.decls.length

section Has

variable {u : SourceUnit}

theorem has_iff {id : DeclId} : u.Has id ↔ ∃ d, u.decl? id = some d := by
  constructor
  · intro h
    exact ⟨_, List.getElem?_eq_getElem h⟩
  · intro h
    obtain ⟨d, hd⟩ := h
    exact (List.getElem?_eq_some_iff.1 hd).1

theorem has_id {d : Decl} (hd : d ∈ u.decls) : u.Has d.id := has_iff.2 ⟨d, decl?_id hd⟩

theorem has_identity {d : Decl} (hd : d ∈ u.decls) : u.Has d.identity.decl := by
  obtain ⟨e, _, he, _⟩ := exists_defining hd
  exact has_iff.2 ⟨e, he⟩

theorem has_of_tagDecl? {ty : TypeKey} {kind : TypeKind} {id : DeclId}
    (hkind : u.typeKind? ty = some kind) (hid : kind.tagDecl? = some id) : u.Has id :=
  u.wellFormed.tagged ty kind id (OrderedMap.get?_eq_some_iff.1 hkind) hid

theorem mem_of_definingRecord? {id : DeclId} {e : Decl × RecordDecl}
    (h : u.definingRecord? id = some e) : e.1 ∈ u.decls := by
  obtain ⟨entity, _, h⟩ := Option.bind_eq_some_iff.1 h
  obtain ⟨d, hd, h⟩ := Option.bind_eq_some_iff.1 h
  obtain ⟨r, _, rfl⟩ := Option.map_eq_some_iff.1 h
  exact mem_of_decl? hd

theorem mem_of_recordOfType? {ty : TypeKey} {e : Decl × RecordDecl}
    (h : u.recordOfType? ty = some e) : e.1 ∈ u.decls := by
  unfold recordOfType? at h
  split at h
  · exact mem_of_definingRecord? h
  · cases h

theorem has_of_mem_visibleSupertypes {id base : DeclId} (h : base ∈ u.visibleSupertypes id) :
    u.Has base := by
  unfold visibleSupertypes at h
  split at h
  · cases h
  · obtain ⟨d, hd, rfl⟩ := List.mem_map.1 (mem_fresh_of_mem_breadthFirst h)
    exact has_id hd

theorem has_of_mem_baseRecords {visibleOnly : Bool} {id base : DeclId}
    (h : base ∈ u.baseRecords visibleOnly id) : u.Has base := by
  unfold baseRecords at h
  split at h
  · cases h
  · obtain ⟨b, _, hb⟩ := List.mem_filterMap.1 h
    obtain ⟨e, he, rfl⟩ := Option.map_eq_some_iff.1 hb
    exact has_id (mem_of_recordOfType? he)

end Has

namespace ExtendedBy

variable {u v : SourceUnit} (h : u.ExtendedBy v)
include h

theorem mem {d : Decl} (hd : d ∈ u.decls) : d ∈ v.decls := h.decls.subset hd

theorem typeKind?_eq : v.typeKind? = u.typeKind? := by
  funext ty
  rw [typeKind?, h.types, typeKind?]

theorem isBool_eq : v.isBool = u.isBool := by
  funext ty
  rw [isBool, h.typeKind?_eq, isBool]

theorem isBuiltin_eq : v.isBuiltin = u.isBuiltin := by
  funext ty
  rw [isBuiltin, h.typeKind?_eq, isBuiltin]

theorem isArithmetic_eq : v.isArithmetic = u.isArithmetic := by
  funext ty
  rw [isArithmetic, h.typeKind?_eq, isArithmetic]

theorem decl?_eq {id : DeclId} (hid : u.Has id) : v.decl? id = u.decl? id := by
  rw [decl?, decl?, List.prefix_iff_getElem?.1 h.decls id.index hid,
    List.getElem?_eq_getElem hid]

theorem identity?_eq {id : DeclId} (hid : u.Has id) : v.identity? id = u.identity? id := by
  rw [identity?, h.decl?_eq hid, identity?]

theorem defining?_eq {d : Decl} (hd : d ∈ u.decls) :
    v.defining? d.identity = u.defining? d.identity := h.decl?_eq (has_identity hd)

theorem tagDecl?_eq : v.tagDecl? = u.tagDecl? := by
  funext ty
  rw [tagDecl?, h.typeKind?_eq, tagDecl?]
  cases hkind : u.typeKind? ty with
  | none => rfl
  | some kind =>
    rw [Option.bind_some, Option.bind_some]
    cases hid : kind.tagDecl? with
    | none => rfl
    | some id => exact h.decl?_eq (has_of_tagDecl? hkind hid)

theorem definingRecord?_eq {id : DeclId} (hid : u.Has id) :
    v.definingRecord? id = u.definingRecord? id := by
  obtain ⟨d, hd⟩ := has_iff.1 hid
  have hidentity : u.identity? id = some d.identity := by
    rw [identity?, hd]
    rfl
  rw [definingRecord?, h.identity?_eq hid, definingRecord?, hidentity, Option.bind_some,
    Option.bind_some, h.defining?_eq (mem_of_decl? hd)]

theorem recordOfType?_eq : v.recordOfType? = u.recordOfType? := by
  funext ty
  rw [recordOfType?, h.typeKind?_eq, recordOfType?]
  split
  · next id hkind => exact h.definingRecord?_eq (has_of_tagDecl? hkind rfl)
  · rfl

theorem injectedSelfType?_eq : v.injectedSelfType? = u.injectedSelfType? := by
  funext ty
  rw [injectedSelfType?, h.recordOfType?_eq, injectedSelfType?]

theorem baseRecords_eq {visibleOnly : Bool} {id : DeclId} (hid : u.Has id) :
    v.baseRecords visibleOnly id = u.baseRecords visibleOnly id := by
  rw [baseRecords, h.definingRecord?_eq hid, h.recordOfType?_eq, baseRecords]

theorem exists_ids : ∃ extra, v.ids = u.ids ++ extra ∧ ∀ id ∈ extra, ¬u.Has id := by
  obtain ⟨further, hfurther⟩ := h.decls
  refine ⟨further.map (·.id), by rw [ids, ← hfurther, List.map_append, ids], ?_⟩
  intro id hid
  obtain ⟨d, hd, rfl⟩ := List.mem_map.1 hid
  obtain ⟨i, hi⟩ := List.mem_iff_getElem?.1 hd
  have hplace : v.decls[u.decls.length + i]? = some d := by
    rw [← hfurther, List.getElem?_append_right (by omega), Nat.add_sub_cancel_left]
    exact hi
  have hindex := v.wellFormed.dense _ d hplace
  rw [Has]
  omega

theorem visibleSupertypes_eq {id : DeclId} (hid : u.Has id) :
    v.visibleSupertypes id = u.visibleSupertypes id := by
  obtain ⟨extra, hids, hextra⟩ := h.exists_ids
  rw [visibleSupertypes, h.definingRecord?_eq hid, hids, visibleSupertypes]
  cases hrecord : u.definingRecord? id with
  | none => rfl
  | some e =>
    have hstart : ∀ x ∈ [e.1.id], u.Has x := by
      intro x hx
      rw [List.mem_singleton.1 hx]
      exact has_id (mem_of_definingRecord? hrecord)
    exact breadthFirst_append hextra (fun _ hx => h.baseRecords_eq hx)
      (fun _ _ _ hy => has_of_mem_baseRecords hy) hstart

theorem isDerived_eq {derived base : Decl} (hderived : derived ∈ u.decls) (hbase : base ∈ u.decls)
    (visibleOnly : Bool) :
    v.isDerived derived.id base.id visibleOnly = u.isDerived derived.id base.id visibleOnly := by
  obtain ⟨extra, hids, hextra⟩ := h.exists_ids
  have hstart : ∀ x ∈ [derived.identity.decl], u.Has x := by
    intro x hx
    rw [List.mem_singleton.1 hx]
    exact has_identity hderived
  rw [isDerived, isDerived, h.identity?_eq (has_id hderived), h.identity?_eq (has_id hbase),
    identity?_id hderived, identity?_id hbase, hids]
  exact reaches_append hextra (fun _ hx => h.baseRecords_eq hx)
    (fun _ _ _ hy => has_of_mem_baseRecords hy) hstart

theorem involvesLibrary_eq : v.involvesLibrary = u.involvesLibrary := by
  have hsought : v.isLibraryType = u.isLibraryType := by
    funext ty
    rw [isLibraryType, h.tagDecl?_eq, isLibraryType]
  have hnext : v.templateArguments = u.templateArguments := by
    funext ty
    rw [templateArguments, h.tagDecl?_eq, templateArguments]
  funext d
  rw [involvesLibrary, hsought, hnext, h.types, involvesLibrary]

theorem supertypeKeys_eq {id : DeclId} (hid : u.Has id) :
    v.supertypeKeys id = u.supertypeKeys id := by
  rw [supertypeKeys, h.visibleSupertypes_eq hid, supertypeKeys]
  refine List.filterMap_congr fun base hbase => ?_
  rw [h.decl?_eq (has_of_mem_visibleSupertypes hbase)]

theorem conversionClosure_eq {d : Decl} (hd : d ∈ u.decls) (order : ClosureOrder) :
    v.conversionClosure order d = u.conversionClosure order d := by
  rw [conversionClosure, h.supertypeKeys_eq (has_id hd), conversionClosure]

/-- A name that stands for a record stands for the same one. -/
theorem named?_eq {name : String} {b : Decl} (hb : v.named? name = some b)
    (hrecord : b.record?.isSome = true) : u.named? name = some b := by
  obtain ⟨further, hfurther⟩ := h.decls
  have hname : b.name = name := by simpa using List.find?_some hb
  obtain ⟨e, he, hsame⟩ := h.named b (List.mem_of_find?_eq_some hb) hrecord
  rw [named?, ← hfurther, List.find?_append] at hb
  cases hfirst : u.decls.find? (·.name = name) with
  | none =>
    rw [List.find?_eq_none] at hfirst
    exact absurd (decide_eq_true (hsame.trans hname)) (hfirst e he)
  | some first =>
    rw [hfirst, Option.some_or] at hb
    rw [named?, hfirst, hb]

theorem named?_of_some {name : String} {b : Decl} (hb : u.named? name = some b) :
    v.named? name = some b := by
  obtain ⟨further, hfurther⟩ := h.decls
  rw [named?] at hb
  rw [named?, ← hfurther, List.find?_append, hb, Option.some_or]

theorem inherits_eq {d : Decl} (hd : d ∈ u.decls) (base : String) :
    RecordMatcher.inherits v d base = RecordMatcher.inherits u d base := by
  rw [RecordMatcher.inherits, RecordMatcher.inherits]
  cases hold : u.named? base with
  | some b =>
    rw [h.named?_of_some hold]
    simp only [h.isDerived_eq hd (List.mem_of_find?_eq_some hold)]
  | none =>
    cases hnew : v.named? base with
    | none => rfl
    | some b =>
      have hrecord : b.record?.isSome = false := by
        rw [Bool.eq_false_iff]
        intro hrecord
        rw [h.named?_eq hnew hrecord] at hold
        cases hold
      simp only [hrecord, Bool.false_and]

theorem covers_eq {d : Decl} (hd : d ∈ u.decls) (m : RecordMatcher) :
    m.covers v d = m.covers u d := by
  cases m with
  | selfOrSubclass base => exact h.inherits_eq hd base
  | handleOf template base =>
    rw [RecordMatcher.covers, RecordMatcher.covers]
    split
    · next name _ arg _ =>
      rw [h.recordOfType?_eq]
      cases hrecord : u.recordOfType? arg with
      | none => rfl
      | some e => simp only [Option.any_some, h.inherits_eq (mem_of_recordOfType? hrecord)]
    · rfl
  | exact typeName => rfl

theorem matching_eq {d : Decl} (hd : d ∈ u.decls) (table : List StringOverride) :
    StringOverride.matching table v d = StringOverride.matching table u d := by
  simp only [StringOverride.matching, h.covers_eq hd]

end ExtendedBy

end SourceUnit

end InteropWitness

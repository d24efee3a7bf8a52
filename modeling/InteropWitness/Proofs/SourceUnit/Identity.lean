import InteropWitness.Override
import InteropWitness.Proofs.Reachability

namespace InteropWitness.SourceUnit

variable {u : SourceUnit}

theorem decl?_id {d : Decl} (hd : d ∈ u.decls) : u.decl? d.id = some d := by
  obtain ⟨i, hi⟩ := List.mem_iff_getElem?.1 hd
  rw [decl?, u.wellFormed.dense i d hi]
  exact hi

theorem mem_of_decl? {id : DeclId} {d : Decl} (h : u.decl? id = some d) : d ∈ u.decls :=
  List.mem_of_getElem? h

theorem identity?_id {d : Decl} (hd : d ∈ u.decls) : u.identity? d.id = some d.identity := by
  rw [identity?, decl?_id hd]
  rfl

theorem index_injective {a b : DeclId} (h : a.index = b.index) : a = b := by
  cases a
  cases b
  simpa [DeclId.index, UInt32.toNat_inj] using h

theorem id_of_decl? {id : DeclId} {d : Decl} (h : u.decl? id = some d) : d.id = id :=
  index_injective (u.wellFormed.dense id.index d h)

/-- Definition links are one hop long, so an entity has a declaration that defines it. -/
theorem exists_defining {d : Decl} (hd : d ∈ u.decls) :
    ∃ e ∈ u.decls, u.defining? d.identity = some e ∧ e.identity = d.identity := by
  cases hlink : d.definition with
  | none =>
    have hid : d.identity = ⟨d.id⟩ := by simp [Decl.identity, hlink]
    exact ⟨d, hd, by rw [hid]; exact decl?_id hd, rfl⟩
  | some target =>
    have hid : d.identity = ⟨target⟩ := by simp [Decl.identity, hlink]
    obtain ⟨e, he, hself⟩ := u.wellFormed.defined d hd target hlink
    have htarget : e.id = target := id_of_decl? he
    refine ⟨e, mem_of_decl? he, by rw [hid]; exact he, ?_⟩
    rw [hid, Decl.identity]
    rcases hself with h | h
    · simp [h, htarget]
    · simp [h]

theorem identity?_eq_of_identity {d e : Decl} (hd : d ∈ u.decls) (he : e ∈ u.decls)
    (h : d.identity = e.identity) : u.identity? d.id = u.identity? e.id := by
  rw [identity?_id hd, identity?_id he, h]

section Redeclared

variable {a b : DeclId} (h : u.identity? a = u.identity? b)
include h

theorem definingRecord?_of_identity : u.definingRecord? a = u.definingRecord? b := by
  rw [definingRecord?, h, definingRecord?]

theorem visibleSupertypes_of_identity : u.visibleSupertypes a = u.visibleSupertypes b := by
  rw [visibleSupertypes, visibleSupertypes, definingRecord?_of_identity h]

theorem isDerived_of_identity {base base' : DeclId} (hbase : u.identity? base = u.identity? base')
    (visibleOnly : Bool) : u.isDerived a base visibleOnly = u.isDerived b base' visibleOnly := by
  rw [isDerived, h, hbase, isDerived]

end Redeclared

end InteropWitness.SourceUnit

namespace InteropWitness

/-- The declarations say the same, wherever they stand and whichever defines the entity. -/
structure Decl.Alike (d e : Decl) : Prop where
  name : d.name = e.name
  inLibrary : d.inLibrary = e.inLibrary
  kind : d.kind = e.kind

instance (d e : Decl) : Decidable (d.Alike e) :=
  decidable_of_iff (d.name = e.name ∧ d.inLibrary = e.inLibrary ∧ d.kind = e.kind)
    ⟨fun h => ⟨h.1, h.2.1, h.2.2⟩, fun h => ⟨h.name, h.inLibrary, h.kind⟩⟩

theorem Decl.Alike.symm {d e : Decl} (h : d.Alike e) : e.Alike d :=
  ⟨h.name.symm, h.inLibrary.symm, h.kind.symm⟩

theorem Decl.Alike.trans {d e f : Decl} (h : d.Alike e) (h' : e.Alike f) : d.Alike f :=
  ⟨h.name.trans h'.name, h.inLibrary.trans h'.inLibrary, h.kind.trans h'.kind⟩

/-- All declarations of an entity say the same. -/
def SourceUnit.RedeclaredAlike (u : SourceUnit) : Prop :=
  ∀ d ∈ u.decls, ∀ e ∈ u.decls, d.identity = e.identity → d.Alike e

instance (u : SourceUnit) : Decidable u.RedeclaredAlike :=
  inferInstanceAs (Decidable (∀ d ∈ u.decls, ∀ e ∈ u.decls, d.identity = e.identity → d.Alike e))

section Alike

variable {u : SourceUnit} {d e : Decl} (hd : d ∈ u.decls) (he : e ∈ u.decls)
  (h : d.identity = e.identity)
include hd he h

theorem SourceUnit.conversionClosure_of_kind (hkind : d.kind = e.kind) (order : ClosureOrder) :
    u.conversionClosure order d = u.conversionClosure order e := by
  rw [conversionClosure, conversionClosure, hkind, supertypeKeys, supertypeKeys,
    visibleSupertypes_of_identity (identity?_eq_of_identity hd he h)]

theorem RecordMatcher.inherits_of_identity (base : String) :
    inherits u d base = inherits u e base := by
  simp only [inherits,
    SourceUnit.isDerived_of_identity (SourceUnit.identity?_eq_of_identity hd he h) rfl]

theorem RecordMatcher.covers_of_alike (halike : d.Alike e) (m : RecordMatcher) :
    m.covers u d = m.covers u e := by
  cases m with
  | selfOrSubclass base => exact inherits_of_identity hd he h base
  | handleOf template base =>
    have hspecialization : d.specialization? = e.specialization? := by
      rw [Decl.specialization?, Decl.specialization?, Decl.record?, Decl.record?, halike.kind]
    rw [covers, covers, hspecialization]
  | exact typeName => rw [covers, covers, halike.name]

theorem StringOverride.matching_of_alike (halike : d.Alike e) (table : List StringOverride) :
    matching table u d = matching table u e := by
  have hcovers : (fun o : StringOverride => o.matcher.covers u d) =
      fun o => o.matcher.covers u e :=
    funext fun o => RecordMatcher.covers_of_alike hd he h halike o.matcher
  rw [matching, matching, hcovers]

end Alike

namespace Decl

theorem tagType?_eq_some_iff {d : Decl} {ty : TypeKey} :
    d.tagType? = some ty ↔
      (∃ r, d.kind = .record r ∧ r.ty = ty) ∨ ∃ e, d.kind = .enumeration e ∧ e.ty = ty := by
  unfold tagType?
  cases d.kind <;> simp

end Decl

namespace SourceUnit

variable {u : SourceUnit} {d : Decl}

/-- The declaration is the definition of the entity that it declares. -/
def Defines (u : SourceUnit) (d : Decl) : Prop := u.defining? d.identity = some d

theorem Defines.mem (h : u.Defines d) : d ∈ u.decls := mem_of_decl? h

theorem Defines.definingRecord?_eq (h : u.Defines d) {r : RecordDecl} (hkind : d.kind = .record r) :
    u.definingRecord? d.id = some (d, r) := by
  have hdefining : u.defining? d.identity = some d := h
  simp [definingRecord?, identity?_id h.mem, hdefining, Decl.record?, hkind]

theorem Defines.mem_visibleSupertypes (h : u.Defines d) {r : RecordDecl}
    (hkind : d.kind = .record r) : d.id ∈ u.visibleSupertypes d.id := by
  rw [visibleSupertypes, h.definingRecord?_eq hkind]
  exact mem_breadthFirst_iff.2
    ⟨d.id, List.mem_singleton_self d.id, .here (List.mem_map_of_mem h.mem)⟩

theorem Defines.tagType_mem_conversionClosure (h : u.Defines d) {ty : TypeKey}
    (hty : d.tagType? = some ty) (order : ClosureOrder) : ty ∈ u.conversionClosure order d := by
  rcases Decl.tagType?_eq_some_iff.1 hty with ⟨r, hkind, _⟩ | ⟨e, hkind, hety⟩
  · have hself : ty ∈ u.supertypeKeys d.id := by
      rw [supertypeKeys, List.mem_filterMap]
      exact ⟨d.id, h.mem_visibleSupertypes hkind, by simp [decl?_id h.mem, hty]⟩
    rw [conversionClosure, hkind]
    exact List.mem_eraseDups.2 (List.mem_append_left _ hself)
  · rw [conversionClosure, hkind]
    exact List.mem_singleton.2 hety.symm

/-- The identity of a declaration in the unit has a definition, and that defines itself. -/
theorem exists_defines (hd : d ∈ u.decls) :
    ∃ e, u.defining? d.identity = some e ∧ e.identity = d.identity ∧ u.Defines e := by
  obtain ⟨e, _, he, hid⟩ := exists_defining hd
  refine ⟨e, he, hid, ?_⟩
  rw [Defines, hid]
  exact he

end SourceUnit

end InteropWitness

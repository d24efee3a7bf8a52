import InteropWitness.Proofs.SourceUnit.Extension
import InteropWitness.Proofs.SourceUnit.Visibility
import Mathlib.Data.List.Nodup

namespace InteropWitness

theorem Decl.record?_eq_some_iff {d : Decl} {r : RecordDecl} :
    d.record? = some r ↔ d.kind = .record r := by
  rw [record?]
  cases d.kind <;> simp

theorem Decl.specialization?_eq_some_iff {d : Decl} {s : Specialization} :
    d.specialization? = some s ↔ ∃ r, d.kind = .record r ∧ r.specialization = some s := by
  simp only [specialization?, Option.bind_eq_some_iff, record?_eq_some_iff]

namespace SourceUnit

/-- The id declares a record, of which `d` is the definition and `r` what it consists of. -/
def DeclaresRecord (u : SourceUnit) (id : DeclId) (d : Decl) (r : RecordDecl) : Prop :=
  ∃ entity, u.identity? id = some entity ∧ u.defining? entity = some d ∧ d.kind = .record r

/-- The record that `a` declares has a base that `b` is the definition of. Bases hidden from the
consumer do not count if only visible ones are asked for. -/
def Inherits (u : SourceUnit) (visibleOnly : Bool) (a b : DeclId) : Prop :=
  ∃ d r, u.DeclaresRecord a d r ∧ ∃ s ∈ r.bases, (visibleOnly = true → ¬s.access.Hidden) ∧
    ∃ id e t, u.typeKind? s.ty = some (.record id) ∧ u.DeclaresRecord id e t ∧ e.id = b

variable {u : SourceUnit} {id : DeclId} {d : Decl} {r : RecordDecl}

theorem DeclaresRecord.identity?_eq (h : u.DeclaresRecord id d r) :
    u.identity? id = some ⟨d.id⟩ := by
  obtain ⟨entity, hentity, hd, _⟩ := h
  rw [hentity, id_of_decl? hd]

theorem DeclaresRecord.mem (h : u.DeclaresRecord id d r) : d ∈ u.decls := by
  obtain ⟨_, _, hd, _⟩ := h
  exact mem_of_decl? hd

theorem DeclaresRecord.of_definition (h : u.DeclaresRecord id d r) : u.DeclaresRecord d.id d r := by
  obtain ⟨entity, hentity, hd, hkind⟩ := h
  obtain ⟨e, he, rfl⟩ := Option.map_eq_some_iff.1 hentity
  obtain ⟨d', _, hd', hid⟩ := exists_defining (mem_of_decl? he)
  rw [hd] at hd'
  cases hd'
  exact ⟨d.identity, identity?_id (mem_of_decl? hd), by rw [hid]; exact hd, hkind⟩

theorem definingRecord?_eq_some_iff : u.definingRecord? id = some (d, r) ↔
    u.DeclaresRecord id d r := by
  simp only [definingRecord?, Option.bind_eq_some_iff, Option.map_eq_some_iff, Prod.mk.injEq,
    Decl.record?_eq_some_iff, DeclaresRecord]
  constructor
  · intro h
    obtain ⟨entity, hentity, e, he, s, hkind, rfl, rfl⟩ := h
    exact ⟨entity, hentity, he, hkind⟩
  · intro h
    obtain ⟨entity, hentity, hd, hkind⟩ := h
    exact ⟨entity, hentity, d, hd, r, hkind, rfl, rfl⟩

theorem recordOfType?_eq_some_iff {ty : TypeKey} : u.recordOfType? ty = some (d, r) ↔
    ∃ id, u.typeKind? ty = some (.record id) ∧ u.DeclaresRecord id d r := by
  unfold recordOfType?
  split
  · next id hkind =>
    rw [definingRecord?_eq_some_iff, hkind]
    simp
  · next hkind =>
    simp only [reduceCtorEq, false_iff]
    intro h
    obtain ⟨id, hid, _⟩ := h
    exact hkind id hid

theorem mem_baseRecords_iff {visibleOnly : Bool} {a b : DeclId} :
    b ∈ u.baseRecords visibleOnly a ↔ u.Inherits visibleOnly a b := by
  have hvisible : ∀ s : BaseSpecifier, (!visibleOnly || s.access.isVisible) = true ↔
      (visibleOnly = true → ¬s.access.Hidden) := by
    intro s
    cases visibleOnly <;> simp [Access.isVisible_iff]
  unfold baseRecords Inherits
  cases hrecord : u.definingRecord? a with
  | none =>
    simp only [List.not_mem_nil, false_iff]
    intro h
    obtain ⟨d, r, hd, _⟩ := h
    rw [definingRecord?_eq_some_iff.2 hd] at hrecord
    cases hrecord
  | some e =>
    obtain ⟨d, r⟩ := e
    simp only [List.mem_filterMap, List.mem_filter, hvisible, Option.map_eq_some_iff, Prod.exists,
      recordOfType?_eq_some_iff]
    constructor
    · intro h
      obtain ⟨s, ⟨hs, hseen⟩, e, t, ⟨id, hid, he⟩, rfl⟩ := h
      exact ⟨d, r, definingRecord?_eq_some_iff.1 hrecord, s, hs, hseen, id, e, t, hid, he, rfl⟩
    · intro h
      obtain ⟨d', r', hd', s, hs, hseen, id, e, t, hid, he, rfl⟩ := h
      rw [definingRecord?_eq_some_iff.2 hd'] at hrecord
      cases hrecord
      exact ⟨s, ⟨hs, hseen⟩, e, t, ⟨id, hid, he⟩, rfl⟩

theorem edge_baseRecords (u : SourceUnit) (visibleOnly : Bool) :
    Edge (u.baseRecords visibleOnly) = u.Inherits visibleOnly := by
  funext a b
  exact propext mem_baseRecords_iff

theorem mem_ids_iff : id ∈ u.ids ↔ u.Has id := by
  rw [ids, List.mem_map, has_iff]
  constructor
  · intro h
    obtain ⟨d, hd, rfl⟩ := h
    exact ⟨d, decl?_id hd⟩
  · intro h
    obtain ⟨d, hd⟩ := h
    exact ⟨d, mem_of_decl? hd, id_of_decl? hd⟩

theorem nodup_ids (u : SourceUnit) : u.ids.Nodup := by
  have hindex : u.ids.map DeclId.index = List.range u.decls.length := by
    refine List.ext_getElem (by simp [ids]) fun i hi _ => ?_
    have hi' : i < u.decls.length := by simpa [ids] using hi
    simp [ids, u.wellFormed.dense i _ (List.getElem?_eq_getElem hi')]
  exact List.Nodup.of_map DeclId.index (hindex ▸ List.nodup_range)

theorem baseRecords_subset_ids (visibleOnly : Bool) :
    ∀ a ∈ u.ids, ∀ b ∈ u.baseRecords visibleOnly a, b ∈ u.ids :=
  fun _ _ _ hb => mem_ids_iff.2 (has_of_mem_baseRecords hb)

theorem isDerived_iff {derived base : DeclId} {a b : Identity} (ha : u.identity? derived = some a)
    (hb : u.identity? base = some b) (visibleOnly : Bool) :
    u.isDerived derived base visibleOnly = true ↔
      Relation.ReflTransGen (u.Inherits visibleOnly) a.decl b.decl := by
  obtain ⟨d, hd, rfl⟩ := Option.map_eq_some_iff.1 ha
  have hstart : d.identity.decl ∈ u.ids := mem_ids_iff.2 (has_identity (mem_of_decl? hd))
  rw [isDerived, ha, hb]
  simp only [reaches_iff_reflTransGen (baseRecords_subset_ids visibleOnly) hstart,
    edge_baseRecords, decide_eq_true_eq, exists_eq_left]

section Supertypes

variable (h : u.DeclaresRecord id d r)
include h

theorem visibleSupertypes_eq_breadthFirst :
    u.visibleSupertypes id = breadthFirst (u.baseRecords true) [d.id] u.ids := by
  rw [visibleSupertypes, definingRecord?_eq_some_iff.2 h]

theorem nodup_visibleSupertypes : (u.visibleSupertypes id).Nodup := by
  rw [visibleSupertypes_eq_breadthFirst h]
  exact nodup_breadthFirst u.nodup_ids

theorem head?_visibleSupertypes : (u.visibleSupertypes id).head? = some d.id := by
  rw [visibleSupertypes_eq_breadthFirst h, breadthFirst,
    if_pos (mem_ids_iff.2 (has_id h.mem)), List.head?_cons]

theorem mem_visibleSupertypes_iff {b : DeclId} :
    b ∈ u.visibleSupertypes id ↔ Relation.ReflTransGen (u.Inherits true) d.id b := by
  rw [visibleSupertypes_eq_breadthFirst h, ← edge_baseRecords,
    mem_breadthFirst_iff_reflTransGen (baseRecords_subset_ids true)
      (mem_ids_iff.2 (has_id h.mem))]

theorem pairwise_visibleSupertypes : (u.visibleSupertypes id).Pairwise fun a b =>
    ∀ m n, Distance (u.Inherits true) d.id a m → Distance (u.Inherits true) d.id b n → m ≤ n := by
  rw [visibleSupertypes_eq_breadthFirst h, ← edge_baseRecords]
  exact pairwise_breadthFirst u.nodup_ids fun _ _ =>
    mem_of_pathTo (baseRecords_subset_ids true) (mem_ids_iff.2 (has_id h.mem))

theorem declaresRecord_of_mem_visibleSupertypes {b : DeclId} (hb : b ∈ u.visibleSupertypes id) :
    ∃ e t, u.DeclaresRecord b e t ∧ e.id = b := by
  rw [mem_visibleSupertypes_iff h] at hb
  rcases hb.cases_tail with rfl | ⟨_, _, hlast⟩
  · exact ⟨d, r, h.of_definition, rfl⟩
  · obtain ⟨_, _, _, _, _, _, _, e, t, _, he, rfl⟩ := hlast
    exact ⟨e, t, he.of_definition, rfl⟩

end Supertypes

/-- For every unit and every id that declares a record. The list of its visible supertypes starts
with the definition, has nothing twice, and holds exactly the definitions of records to which
visible base specifiers lead, those on shorter paths first. It holds an entity exactly if the record
is visibly derived from that; hidden bases count as well when they are asked for. What an id
declares is all that matters of it. -/
theorem inheritance_is_reachability (h : u.DeclaresRecord id d r) :
    u.identity? id = some ⟨d.id⟩ ∧ (u.visibleSupertypes id).head? = some d.id ∧
      (u.visibleSupertypes id).Nodup ∧
      (∀ b ∈ u.visibleSupertypes id, ∃ e t, u.DeclaresRecord b e t ∧ e.id = b) ∧
      (∀ b, b ∈ u.visibleSupertypes id ↔ Relation.ReflTransGen (u.Inherits true) d.id b) ∧
      ((u.visibleSupertypes id).Pairwise fun a b => ∀ m n,
        Distance (u.Inherits true) d.id a m → Distance (u.Inherits true) d.id b n → m ≤ n) ∧
      (∀ base b, u.identity? base = some b →
        (u.isDerived id base true = true ↔ b.decl ∈ u.visibleSupertypes id) ∧
        (u.isDerived id base false = true ↔
          Relation.ReflTransGen (u.Inherits false) d.id b.decl)) ∧
      ∀ id', u.identity? id' = u.identity? id →
        u.visibleSupertypes id' = u.visibleSupertypes id ∧
        ∀ base base', u.identity? base' = u.identity? base → ∀ visibleOnly,
          u.isDerived id' base' visibleOnly = u.isDerived id base visibleOnly := by
  have hidentity := h.identity?_eq
  refine ⟨hidentity, head?_visibleSupertypes h, ?_,
    fun _ => declaresRecord_of_mem_visibleSupertypes h, fun _ => mem_visibleSupertypes_iff h,
    pairwise_visibleSupertypes h, ?_, ?_⟩
  · rw [visibleSupertypes_eq_breadthFirst h]
    exact nodup_breadthFirst u.nodup_ids
  · intro base b hb
    rw [isDerived_iff hidentity hb, isDerived_iff hidentity hb, mem_visibleSupertypes_iff h]
    exact ⟨Iff.rfl, Iff.rfl⟩
  · intro id' hid'
    exact ⟨visibleSupertypes_of_identity hid',
      fun _ _ hbase => isDerived_of_identity hid' hbase⟩

/-- A cycle of records with two ways around it. The last but one declares the leaf again, and the
type of the leaf leads there; the last is a hidden base of the leaf. -/
def diamond : SourceUnit where
  decls :=
    [⟨⟨0⟩, "Root", none, true, .record ⟨"Root", [⟨"Leaf", .publicAccess⟩], [], none⟩⟩,
      ⟨⟨1⟩, "Left", none, true, .record ⟨"Left", [⟨"Root", .publicAccess⟩], [], none⟩⟩,
      ⟨⟨2⟩, "Right", none, true,
        .record ⟨"Right", [⟨"Root", .publicAccess⟩, ⟨"Root", .unspecified⟩], [], none⟩⟩,
      ⟨⟨3⟩, "Leaf", none, true, .record ⟨"Leaf",
        [⟨"Left", .publicAccess⟩, ⟨"Right", .publicAccess⟩, ⟨"Store", .privateAccess⟩], [], none⟩⟩,
      ⟨⟨4⟩, "Leaf", some ⟨3⟩, true, .record ⟨"Leaf", [], [], none⟩⟩,
      ⟨⟨5⟩, "Store", none, true, .record ⟨"Store", [], [], none⟩⟩]
  types := OrderedMap.ofList [("Root", .record ⟨0⟩), ("Left", .record ⟨1⟩), ("Right", .record ⟨2⟩),
    ("Leaf", .record ⟨4⟩), ("Store", .record ⟨5⟩)]
  wellFormed := WellFormed.fault?_eq_none_iff.1 (by decide)

theorem inheritance_of_diamond :
    diamond.DeclaresRecord ⟨4⟩ diamond.decls[3] ⟨"Leaf",
        [⟨"Left", .publicAccess⟩, ⟨"Right", .publicAccess⟩, ⟨"Store", .privateAccess⟩], [], none⟩ ∧
      (diamond.visibleSupertypes ⟨4⟩).head? = some ⟨3⟩ ∧ (diamond.visibleSupertypes ⟨4⟩).Nodup ∧
      diamond.visibleSupertypes ⟨4⟩ = diamond.visibleSupertypes ⟨3⟩ ∧
      (diamond.isDerived ⟨4⟩ ⟨0⟩ true = true ↔ ⟨0⟩ ∈ diamond.visibleSupertypes ⟨4⟩) ∧
      diamond.isDerived ⟨4⟩ ⟨5⟩ false = true := by
  have hleaf : diamond.DeclaresRecord ⟨4⟩ diamond.decls[3] ⟨"Leaf",
      [⟨"Left", .publicAccess⟩, ⟨"Right", .publicAccess⟩, ⟨"Store", .privateAccess⟩], [], none⟩ :=
    ⟨⟨⟨3⟩⟩, by decide, by decide, rfl⟩
  have hstore : diamond.DeclaresRecord ⟨5⟩ diamond.decls[5] ⟨"Store", [], [], none⟩ :=
    ⟨⟨⟨5⟩⟩, by decide, by decide, rfl⟩
  have hhidden : diamond.Inherits false ⟨3⟩ ⟨5⟩ :=
    ⟨_, _, hleaf.of_definition, ⟨"Store", .privateAccess⟩, by decide, by decide, ⟨5⟩, _, _,
      by decide, hstore, rfl⟩
  obtain ⟨_, hhead, hnodup, _, _, _, hderived, hsame⟩ := inheritance_is_reachability hleaf
  refine ⟨hleaf, hhead, hnodup, ((hsame ⟨3⟩ (by decide)).1).symm, ?_, ?_⟩
  · exact (hderived ⟨0⟩ ⟨⟨0⟩⟩ (by decide)).1
  · exact (hderived ⟨5⟩ ⟨⟨5⟩⟩ (by decide)).2.2 (.single hhidden)

example : diamond.visibleSupertypes ⟨4⟩ = [⟨3⟩, ⟨1⟩, ⟨2⟩, ⟨0⟩] := by cbv

end SourceUnit

end InteropWitness

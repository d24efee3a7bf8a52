import InteropWitness.Proofs.OrderedMap
import InteropWitness.Proofs.SourceUnit.Identity
import Mathlib.Logic.Relation

namespace InteropWitness

/-- Every place in which a declaration can name a type. -/
inductive Decl.RefersTo (d : Decl) : TypeKey → Prop
  | ownRecord {r : RecordDecl} (h : d.kind = .record r) : RefersTo d r.ty
  | base {r : RecordDecl} {b : BaseSpecifier} (h : d.kind = .record r) (hb : b ∈ r.bases) :
      RefersTo d b.ty
  | conversion {r : RecordDecl} {c : ConversionOperator} (h : d.kind = .record r)
      (hc : c ∈ r.conversions) : RefersTo d c.target.ty
  | selfType {r : RecordDecl} {s : Specialization} (h : d.kind = .record r)
      (hs : r.specialization = some s) : RefersTo d s.selfType
  | argument {r : RecordDecl} {s : Specialization} {ty : TypeKey} (h : d.kind = .record r)
      (hs : r.specialization = some s) (hty : ty ∈ s.args) : RefersTo d ty
  | ownEnum {e : EnumDecl} (h : d.kind = .enumeration e) : RefersTo d e.ty
  | parameter {f : FunctionDecl} {q : QualType} (h : d.kind = .function f) (hq : q ∈ f.params) :
      RefersTo d q.ty
  | result {f : FunctionDecl} (h : d.kind = .function f) : RefersTo d f.returnType.ty
  | parent {f : FunctionDecl} {m : MethodInfo} (h : d.kind = .function f)
      (hm : f.method = some m) : RefersTo d m.parent

/-- Lists of declarations and types that fit together. -/
structure Admissible (decls : List Decl) (types : List TypeInfo) : Prop where
  /-- No type is listed with two meanings. -/
  consistent : ∀ s ∈ types, ∀ t ∈ types, s.key = t.key → s.kind = t.kind
  /-- Ids are positions. -/
  dense : ∀ (i : Nat) (d : Decl), decls[i]? = some d → d.id.index = i
  /-- Record and enum types have a declaration. -/
  tagged : ∀ t ∈ types, ∀ target, t.kind.tagDecl? = some target →
    ∃ d, decls[target.index]? = some d
  /-- A definition is there, and names no definition or itself. -/
  defined : ∀ d ∈ decls, ∀ target, d.definition = some target →
    ∃ e, decls[target.index]? = some e ∧ (e.definition = none ∨ e.definition = some e.id)
  /-- Types that a declaration refers to are listed. -/
  registered : ∀ d ∈ decls, ∀ ty, d.RefersTo ty → ∃ t ∈ types, t.key = ty

/-- The declaration at `a` names another one, at `b`, as its definition. -/
def LinksTo (decls : List Decl) (a b : DeclId) : Prop :=
  a ≠ b ∧ ∃ d, decls[a.index]? = some d ∧ d.definition = some b

theorem Decl.mem_referencedTypes_iff {d : Decl} {ty : TypeKey} :
    ty ∈ d.referencedTypes ↔ d.RefersTo ty := by
  constructor
  · intro h
    unfold referencedTypes at h
    cases hkind : d.kind with
    | record r =>
      rw [hkind] at h
      simp only [List.cons_append, List.mem_cons, List.mem_append, List.mem_map] at h
      rcases h with rfl | (⟨b, hb, rfl⟩ | ⟨c, hc, rfl⟩) | hs
      · exact .ownRecord hkind
      · exact .base hkind hb
      · exact .conversion hkind hc
      · cases hspec : r.specialization with
        | none => simp [hspec] at hs
        | some s =>
          rw [hspec, List.mem_cons] at hs
          rcases hs with rfl | harg
          · exact .selfType hkind hspec
          · exact .argument hkind hspec harg
    | enumeration e =>
      rw [hkind, List.mem_singleton] at h
      rw [h]
      exact .ownEnum hkind
    | function f =>
      rw [hkind] at h
      simp only [List.mem_append, List.mem_map, List.mem_cons] at h
      rcases h with ⟨q, hq, rfl⟩ | rfl | hm
      · exact .parameter hkind hq
      · exact .result hkind
      · cases hmethod : f.method with
        | none => simp [hmethod] at hm
        | some m =>
          rw [hmethod, List.mem_singleton] at hm
          rw [hm]
          exact .parent hkind hmethod
    | other => simp [hkind] at h
  · intro h
    cases h with
    | ownRecord h => simp [referencedTypes, h]
    | base h hb => simpa [referencedTypes, h] using Or.inr (Or.inl ⟨_, hb, rfl⟩)
    | conversion h hc => simpa [referencedTypes, h] using Or.inr (Or.inr (Or.inl ⟨_, hc, rfl⟩))
    | selfType h hs => simp [referencedTypes, h, hs]
    | argument h hs hty => simp [referencedTypes, h, hs, hty]
    | ownEnum h => simp [referencedTypes, h]
    | parameter h hq => simpa [referencedTypes, h] using Or.inl ⟨_, hq, rfl⟩
    | result h => simp [referencedTypes, h]
    | parent h hm => simp [referencedTypes, h, hm]

namespace TypeTable

theorem get?_ofList {types : List TypeInfo} {table result : TypeTable}
    (h : ofList types table = .ok result) {key : TypeKey} {kind : TypeKind} :
    result.get? key = some kind ↔ table.get? key = some kind ∨ ⟨key, kind⟩ ∈ types := by
  induction types generalizing table with
  | nil =>
    cases h
    simp
  | cons info rest ih =>
    rw [ofList] at h
    split at h
    · next hnew =>
      rw [ih h, OrderedMap.get?_assign, List.mem_cons]
      by_cases hkey : key = info.key
      · subst hkey
        rw [if_pos rfl, hnew, Option.some_inj]
        constructor
        · intro hor
          rcases hor with rfl | hmem
          · exact Or.inr (Or.inl rfl)
          · exact Or.inr (Or.inr hmem)
        · intro hor
          rcases hor with hfalse | heq | hmem
          · cases hfalse
          · exact Or.inl (congrArg TypeInfo.kind heq).symm
          · exact Or.inr hmem
      · have hne : (⟨key, kind⟩ : TypeInfo) ≠ info := fun heq => hkey (congrArg TypeInfo.key heq)
        simp only [hkey, if_false, hne, false_or]
    · next old hold =>
      split at h
      · next hsame =>
        rw [ih h, List.mem_cons]
        have hfirst : (⟨key, kind⟩ : TypeInfo) = info → table.get? key = some kind := by
          intro heq
          subst heq
          rw [hold, hsame]
        constructor
        · intro hor
          rcases hor with hget | hmem
          · exact Or.inl hget
          · exact Or.inr (Or.inr hmem)
        · intro hor
          rcases hor with hget | heq | hmem
          · exact Or.inl hget
          · exact Or.inl (hfirst heq)
          · exact Or.inr hmem
      · cases h

theorem ofList_succeeds {types : List TypeInfo} {table : TypeTable}
    (hold : ∀ t ∈ types, ∀ kind, table.get? t.key = some kind → kind = t.kind)
    (hsame : ∀ s ∈ types, ∀ t ∈ types, s.key = t.key → s.kind = t.kind) :
    ∃ result, ofList types table = .ok result := by
  induction types generalizing table with
  | nil => exact ⟨table, rfl⟩
  | cons info rest ih =>
    have hsameRest : ∀ s ∈ rest, ∀ t ∈ rest, s.key = t.key → s.kind = t.kind :=
      fun s hs t ht => hsame s (List.mem_cons_of_mem _ hs) t (List.mem_cons_of_mem _ ht)
    have holdRest : ∀ t ∈ rest, ∀ kind, table.get? t.key = some kind → kind = t.kind :=
      fun t ht => hold t (List.mem_cons_of_mem _ ht)
    rw [ofList]
    split
    · refine ih (fun t ht kind hget => ?_) hsameRest
      rw [OrderedMap.get?_assign] at hget
      split at hget
      · next hkey =>
        rw [← Option.some.inj hget]
        exact hsame info List.mem_cons_self t (List.mem_cons_of_mem _ ht) hkey.symm
      · exact holdRest t ht kind hget
    · next old hget =>
      rw [if_pos (hold info List.mem_cons_self old hget)]
      exact ih holdRest hsameRest

theorem ofList_eq_foldl {entries : List (TypeKey × TypeKind)} {table : TypeTable}
    (hnd : ((table.entries ++ entries).map Prod.fst).Nodup) :
    ofList (entries.map fun e => ⟨e.1, e.2⟩) table =
      .ok (entries.foldl (fun m e => m.assign e.1 e.2) table) := by
  induction entries generalizing table with
  | nil => rfl
  | cons e rest ih =>
    obtain ⟨hfresh, hassign⟩ := OrderedMap.assign_fresh hnd
    rw [List.map_cons, ofList, OrderedMap.get?_eq_none_iff.2 hfresh, List.foldl_cons]
    exact ih (hassign ▸ hnd)

theorem ofList_entries (table : TypeTable) :
    ofList (table.entries.map fun e => ⟨e.1, e.2⟩) .empty = .ok table := by
  have hnd : ((OrderedMap.empty.entries ++ table.entries).map Prod.fst).Nodup := table.nodup
  rw [ofList_eq_foldl hnd]
  exact congrArg Except.ok (OrderedMap.ofList_entries table)

end TypeTable

namespace SourceUnit

variable {decls : List Decl} {types : List TypeInfo} {u : SourceUnit}

theorem assemble_eq_ok_iff :
    assemble decls types = .ok u ↔ TypeTable.ofList types .empty = .ok u.types ∧
      u.decls = decls := by
  obtain ⟨udecls, utypes, hu⟩ := u
  unfold assemble
  constructor
  · intro h
    split at h
    · cases h
    · next table htable =>
      split at h
      · cases h
      · cases h
        exact ⟨htable, rfl⟩
  · intro h
    obtain ⟨htable, rfl⟩ := h
    rw [htable]
    have hnone := WellFormed.fault?_eq_none_iff.2 hu
    simp only
    split
    · next hsome =>
      rw [hnone] at hsome
      cases hsome
    · rfl

theorem mem_types_iff (h : assemble decls types = .ok u) {key : TypeKey} {kind : TypeKind} :
    u.types.get? key = some kind ↔ ⟨key, kind⟩ ∈ types := by
  rw [TypeTable.get?_ofList (assemble_eq_ok_iff.1 h).1]
  simp

theorem admissible_of_assemble (h : assemble decls types = .ok u) : Admissible decls types := by
  obtain ⟨_, rfl⟩ := assemble_eq_ok_iff.1 h
  refine ⟨?_, u.wellFormed.dense, ?_, ?_, ?_⟩
  · intro s hs t ht hkey
    have hget := (mem_types_iff h).2 hs
    rw [hkey, (mem_types_iff h).2 ht] at hget
    exact (Option.some.inj hget).symm
  · intro t ht target htarget
    have hentry := OrderedMap.get?_eq_some_iff.1 ((mem_types_iff h).2 ht)
    have hlength := u.wellFormed.tagged t.key t.kind target hentry htarget
    exact ⟨_, List.getElem?_eq_getElem hlength⟩
  · intro d hd target htarget
    obtain ⟨e, he, hself⟩ := u.wellFormed.defined d hd target htarget
    have hid : e.id = target := id_of_decl? he
    exact ⟨e, he, hid ▸ hself⟩
  · intro d hd ty hrefers
    have hkeys := u.wellFormed.registered d hd ty (Decl.mem_referencedTypes_iff.2 hrefers)
    obtain ⟨kind, hkind⟩ := OrderedMap.exists_get?_of_mem hkeys
    exact ⟨⟨ty, kind⟩, (mem_types_iff h).1 hkind, rfl⟩

theorem assemble_of_admissible (h : Admissible decls types) :
    ∃ u, assemble decls types = .ok u := by
  obtain ⟨table, htable⟩ := @TypeTable.ofList_succeeds types .empty
    (fun _ _ _ hget => by cases hget) h.consistent
  have hget : ∀ key kind, table.get? key = some kind ↔ ⟨key, kind⟩ ∈ types := by
    intro key kind
    rw [TypeTable.get?_ofList htable]
    simp
  have hwell : WellFormed decls table := by
    refine ⟨h.dense, ?_, ?_, ?_⟩
    · intro key kind target hentry htarget
      have hmem := (hget key kind).1 (OrderedMap.get?_eq_some_iff.2 hentry)
      obtain ⟨d, hd⟩ := h.tagged _ hmem target htarget
      exact (List.getElem?_eq_some_iff.1 hd).1
    · intro d hd target htarget
      obtain ⟨e, he, hself⟩ := h.defined d hd target htarget
      have hid : e.id = target := index_injective (h.dense target.index e he)
      exact ⟨e, he, hid ▸ hself⟩
    · intro d hd ty hty
      obtain ⟨t, ht, rfl⟩ := h.registered d hd ty (Decl.mem_referencedTypes_iff.1 hty)
      exact OrderedMap.mem_keys_of_get? ((hget t.key t.kind).2 ht)
  exact ⟨⟨decls, table, hwell⟩, assemble_eq_ok_iff.2 ⟨htable, rfl⟩⟩

/-- A definition link to another declaration ends there. -/
theorem not_linksTo_of_linksTo {a b c : DeclId} (h : LinksTo u.decls a b) :
    ¬LinksTo u.decls b c := by
  intro hnext
  obtain ⟨_, d, hd, hlink⟩ := h
  obtain ⟨hne, e, he, hstep⟩ := hnext
  obtain ⟨e', he', hself⟩ := u.wellFormed.defined d (mem_of_decl? hd) b hlink
  rw [he] at he'
  cases he'
  rcases hself with hnone | hself
  · rw [hstep] at hnone
    cases hnone
  · rw [hstep] at hself
    exact hne (Option.some.inj hself).symm

/-- Chains of definition links are single links. -/
theorem linksTo_of_transGen {a b : DeclId} (h : Relation.TransGen (LinksTo u.decls) a b) :
    LinksTo u.decls a b := by
  induction h with
  | single hlink => exact hlink
  | tail _ hlink ih => exact absurd hlink (not_linksTo_of_linksTo ih)

theorem exists_identity {id : DeclId} (h : id.index < u.decls.length) :
    ∃ entity e, u.identity? id = some entity ∧ u.defining? entity = some e ∧
      e.identity = entity ∧ u.identity? entity.decl = some entity := by
  have hd : u.decl? id = some u.decls[id.index] := List.getElem?_eq_getElem h
  obtain ⟨e, _, he, hself⟩ := exists_defining (mem_of_decl? hd)
  refine ⟨_, e, by rw [identity?, hd]; rfl, he, hself, ?_⟩
  have hdecl : u.decl? (u.decls[id.index].identity.decl) = some e := he
  rw [identity?, hdecl, Option.map_some, hself]

/-- For all lists: there is a unit of these declarations and types exactly if they are admissible.
It has the declarations as they are listed and the types that are listed. In it every id of a
declaration has an identity, which stands for a declaration with that identity; and definition links
between different declarations make up no chain, so no cycle either. -/
theorem assemble_succeeds_iff (decls : List Decl) (types : List TypeInfo) :
    ((∃ u, assemble decls types = .ok u) ↔ Admissible decls types) ∧
      ∀ u, assemble decls types = .ok u →
        u.decls = decls ∧
        (∀ key kind, u.typeKind? key = some kind ↔ ⟨key, kind⟩ ∈ types) ∧
        (∀ id : DeclId, id.index < decls.length →
          ∃ entity e, u.identity? id = some entity ∧ u.defining? entity = some e ∧
            e.identity = entity ∧ u.identity? entity.decl = some entity) ∧
        (∀ a b c, LinksTo decls a b → ¬LinksTo decls b c) ∧
        ∀ a, ¬Relation.TransGen (LinksTo decls) a a := by
  refine ⟨⟨fun ⟨u, hu⟩ => admissible_of_assemble hu, assemble_of_admissible⟩, fun u hu => ?_⟩
  obtain ⟨_, rfl⟩ := assemble_eq_ok_iff.1 hu
  refine ⟨rfl, fun _ _ => mem_types_iff hu, fun _ => exists_identity,
    fun _ _ _ => not_linksTo_of_linksTo, fun a hcycle => ?_⟩
  exact (linksTo_of_transGen hcycle).1 rfl

end SourceUnit

end InteropWitness

import InteropWitness.Proofs.SourceUnit.Acceptance
import InteropWitness.Proofs.SourceUnit.Extension
import InteropWitness.SourceUnit.Builder

namespace InteropWitness.SourceUnit

theorem getElem?_append_of_some {α : Type} {items : List α} {i : Nat} {a : α}
    (h : items[i]? = some a) {further : List α} : (items ++ further)[i]? = some a := by
  rw [List.getElem?_append_left (List.getElem?_eq_some_iff.1 h).1, h]

/-- Declarations that are looked into repeat the one at the place of their identity. -/
def Coherent (decls : List Decl) : Prop :=
  ∀ d ∈ decls, d.kind ≠ .other → ∃ e, decls[d.identity.decl.index]? = some e ∧ d.Alike e

theorem Coherent.alike {decls : List Decl} (h : Coherent decls) {d e : Decl} (hd : d ∈ decls)
    (he : e ∈ decls) (hid : d.identity = e.identity) (hkind : d.kind ≠ .other)
    (hkind' : e.kind ≠ .other) : d.Alike e := by
  obtain ⟨f, hf, hdf⟩ := h d hd hkind
  obtain ⟨g, hg, heg⟩ := h e he hkind'
  rw [hid, hg] at hf
  cases hf
  exact hdf.trans heg.symm

/-- The declaration is of a new entity, or not looked into, or repeats one of the others. -/
def Continues (decls : List Decl) (d : Decl) : Prop :=
  d.definition = none ∨ d.kind = .other ∨ ∃ e ∈ decls, d.identity = e.identity ∧ d.Alike e

theorem Coherent.append {decls : List Decl} {d : Decl} (h : Coherent decls)
    (hplace : d.id.index = decls.length) (hd : Continues decls d) : Coherent (decls ++ [d]) := by
  intro e he hkind
  rw [List.mem_append, List.mem_singleton] at he
  rcases he with he | rfl
  · obtain ⟨f, hf, halike⟩ := h e he hkind
    exact ⟨f, getElem?_append_of_some hf, halike⟩
  · rcases hd with hnew | hother | ⟨f, hf, hid, halike⟩
    · have hself : e.identity.decl.index = decls.length := by
        rw [Decl.identity, hnew]
        exact hplace
      exact ⟨e, by rw [hself, List.getElem?_concat_length], rfl, rfl, rfl⟩
    · exact absurd hother hkind
    · have hfkind : f.kind ≠ .other := by
        rw [← halike.kind]
        exact hkind
      obtain ⟨g, hg, halike'⟩ := h f hf hfkind
      exact ⟨g, by rw [hid]; exact getElem?_append_of_some hg, halike.trans halike'⟩

namespace Step

def kind? : Step → Option DeclKind
  | .record name spec _ =>
    some (.record ⟨name, spec.bases, spec.conversions, spec.specialization⟩)
  | .enumeration name isScoped _ => some (.enumeration ⟨name, isScoped⟩)
  | .function _ spec => some (.function spec.decl)
  | .other _ _ => some .other
  | .builtin _ _ | .dependent _ | .plainType _ | .redeclare _ => none

def name : Step → String
  | .record name _ _ | .enumeration name _ _ | .function name _ | .other name _ => name
  | .builtin _ _ | .dependent _ | .plainType _ | .redeclare _ => ""

/-- The step returns the id of a declaration. -/
def declares : Step → Bool
  | .record _ _ _ | .enumeration _ _ _ | .function _ _ | .other _ _ | .redeclare _ => true
  | .builtin _ _ | .dependent _ | .plainType _ => false

end Step

namespace Builder

/-- The declaration that repeats another one at a new place. -/
def copy (id : DeclId) (d : Decl) : Decl := { d with id, definition := some d.identity.decl }

@[simp] theorem identity_copy (id : DeclId) (d : Decl) : (copy id d).identity = d.identity := rfl

theorem alike_copy (id : DeclId) (d : Decl) : (copy id d).Alike d := ⟨rfl, rfl, rfl⟩

variable (b : Builder)

theorem decls_redeclare {earlier : DeclId} {d : Decl} (hd : b.decls[earlier.index]? = some d) :
    (b.redeclare earlier).decls = b.decls ++ [copy b.nextId d] := by
  rw [redeclare, hd]
  rfl

@[simp] theorem types_redeclare (earlier : DeclId) : (b.redeclare earlier).types = b.types := rfl

@[simp] theorem decls_registerSelfTypes (selfTypes : List TypeKey) :
    (b.registerSelfTypes selfTypes).decls = b.decls := by
  rw [registerSelfTypes]
  induction selfTypes generalizing b with
  | nil => rfl
  | cons ty rest ih => exact ih (b.register ty .dependent)

theorem decls_addRecord (name : String) (spec : RecordSpec) (selfTypes : List TypeKey) :
    (b.addRecord name spec selfTypes).decls = b.decls ++ [⟨b.nextId, name, none, spec.inLibrary,
      .record ⟨name, spec.bases, spec.conversions, spec.specialization⟩⟩] := by
  simp only [addRecord, declare, nextId, decls_registerSelfTypes, register]

/-- What a step that declares adds to the declarations. -/
inductive Adds : Step → Decl → Prop
  | new {step : Step} {kind : DeclKind} (hkind : step.kind? = some kind) (inLibrary : Bool) :
      Adds step ⟨b.nextId, step.name, none, inLibrary, kind⟩
  | again {earlier : DeclId} {d : Decl} (hd : b.decls[earlier.index]? = some d) :
      Adds (.redeclare earlier) (copy b.nextId d)
  | unknown {earlier : DeclId} (hnone : b.decls[earlier.index]? = none) :
      Adds (.redeclare earlier) ⟨b.nextId, "", some earlier, false, .other⟩

/-- A step registers types only, or it adds one declaration. -/
theorem decls_apply (step : Step) :
    (step.declares = false ∧ (b.apply step).decls = b.decls) ∨
      step.declares = true ∧ ∃ d, b.Adds step d ∧ (b.apply step).decls = b.decls ++ [d] := by
  cases step with
  | builtin name kind => exact Or.inl ⟨rfl, rfl⟩
  | dependent name => exact Or.inl ⟨rfl, rfl⟩
  | plainType name => exact Or.inl ⟨rfl, rfl⟩
  | record name spec selfTypes =>
    exact Or.inr ⟨rfl, _, .new rfl spec.inLibrary, b.decls_addRecord name spec selfTypes⟩
  | enumeration name isScoped inLibrary => exact Or.inr ⟨rfl, _, .new rfl inLibrary, rfl⟩
  | function name spec => exact Or.inr ⟨rfl, _, .new rfl spec.inLibrary, rfl⟩
  | other name inLibrary => exact Or.inr ⟨rfl, _, .new rfl inLibrary, rfl⟩
  | redeclare earlier =>
    cases hd : b.decls[earlier.index]? with
    | none => exact Or.inr ⟨rfl, _, .unknown hd, by rw [apply, redeclare, hd]⟩
    | some d => exact Or.inr ⟨rfl, _, .again hd, b.decls_redeclare hd⟩

variable {b} in
theorem Adds.id_eq {step : Step} {d : Decl} (h : b.Adds step d) : d.id = b.nextId := by
  cases h <;> rfl

variable {b} in
theorem Adds.continues {step : Step} {d : Decl} (h : b.Adds step d) : Continues b.decls d := by
  cases h with
  | new => exact Or.inl rfl
  | again hd =>
    exact Or.inr (Or.inr ⟨_, List.mem_of_getElem? hd, identity_copy _ _, alike_copy _ _⟩)
  | unknown => exact Or.inr (Or.inl rfl)

theorem decls_prefix_apply (step : Step) : b.decls <+: (b.apply step).decls := by
  rcases b.decls_apply step with ⟨_, h⟩ | ⟨_, d, _, h⟩
  · exact ⟨[], by rw [List.append_nil, h]⟩
  · exact ⟨[d], h.symm⟩

theorem decls_prefix_foldl (steps : List Step) : b.decls <+: (steps.foldl apply b).decls := by
  induction steps generalizing b with
  | nil => exact List.prefix_rfl
  | cons step rest ih => exact (b.decls_prefix_apply step).trans (ih (b.apply step))

variable {b}

def after (steps : List Step) : Builder := steps.foldl apply .initial

theorem after_concat (steps : List Step) (step : Step) :
    after (steps ++ [step]) = (after steps).apply step := by
  rw [after, List.foldl_concat, after]

/-- Steps keep declarations coherent if in the end ids are positions. -/
theorem coherent_foldl {steps : List Step} (h : Coherent b.decls)
    (hdense : ∀ (i : Nat) (d : Decl),
      (steps.foldl apply b).decls[i]? = some d → d.id.index = i) :
    Coherent (steps.foldl apply b).decls := by
  induction steps generalizing b with
  | nil => exact h
  | cons step rest ih =>
    refine ih ?_ hdense
    rcases b.decls_apply step with ⟨_, hsame⟩ | ⟨_, d, hd, hadd⟩
    · rw [hsame]
      exact h
    · have hlast : (b.apply step).decls[b.decls.length]? = some d := by
        rw [hadd, List.getElem?_concat_length]
      obtain ⟨later, hlater⟩ := (b.apply step).decls_prefix_foldl rest
      have hplace : d.id.index = b.decls.length := by
        apply hdense
        rw [List.foldl_cons, ← hlater]
        exact getElem?_append_of_some hlast
      rw [hadd]
      exact h.append hplace hd.continues

end Builder

theorem build_eq_ok_iff {steps : List Step} {u : SourceUnit} :
    build steps = .ok u ↔ (Builder.after steps).decls = u.decls ∧
      (Builder.after steps).types = u.types := by
  rw [Builder.after, build, assemble_eq_ok_iff, TypeTable.ofList_entries, Except.ok.injEq,
    and_comm, eq_comm]

theorem decls_initial : Builder.initial.decls = [] := rfl

theorem coherent_of_build {steps : List Step} {u : SourceUnit} (h : build steps = .ok u) :
    Coherent u.decls := by
  obtain ⟨hdecls, _⟩ := build_eq_ok_iff.1 h
  have hinitial : Coherent Builder.initial.decls := by
    intro d hd
    rw [decls_initial] at hd
    cases hd
  rw [← hdecls]
  apply Builder.coherent_foldl hinitial
  rw [← Builder.after, hdecls]
  exact u.wellFormed.dense

/-- `v` has one declaration more than `u`, which repeats the declaration `d` of `u`. -/
structure Redeclares (u v : SourceUnit) (d copy : Decl) : Prop where
  mem : d ∈ u.decls
  types : v.types = u.types
  decls : v.decls = u.decls ++ [copy]
  identity : copy.identity = d.identity
  alike : copy.Alike d

theorem Redeclares.extendedBy {u v : SourceUnit} {d copy : Decl} (h : u.Redeclares v d copy) :
    u.ExtendedBy v := by
  refine ⟨h.types, ⟨[copy], h.decls.symm⟩, fun e he _ => ?_⟩
  rw [h.decls, List.mem_append, List.mem_singleton] at he
  rcases he with he | rfl
  · exact ⟨e, he, rfl⟩
  · exact ⟨d, h.mem, h.alike.name.symm⟩

theorem Redeclares.named?_eq {u v : SourceUnit} {d copy : Decl} (h : u.Redeclares v d copy)
    (name : String) : v.named? name = u.named? name := by
  cases hold : u.named? name with
  | some b => exact h.extendedBy.named?_of_some hold
  | none =>
    rw [named?, List.find?_eq_none] at hold
    rw [named?, List.find?_eq_none, h.decls]
    intro e he
    rw [List.mem_append, List.mem_singleton] at he
    rcases he with he | rfl
    · exact hold e he
    · rw [h.alike.name]
      exact hold d h.mem

theorem index_ofIndex (n : Nat) : (DeclId.ofIndex n).index = n % UInt32.size :=
  UInt32.toNat_ofNat'

theorem index_ofIndex_eq_iff {n : Nat} : (DeclId.ofIndex n).index = n ↔ n < UInt32.size := by
  rw [index_ofIndex, Nat.mod_eq_iff_lt (by decide)]

theorem index_ofIndex_le (n : Nat) : (DeclId.ofIndex n).index ≤ n := by
  rw [index_ofIndex]
  exact Nat.mod_le n UInt32.size

theorem ofIndex_index (id : DeclId) : DeclId.ofIndex id.index = id :=
  congrArg DeclId.mk UInt32.ofNat_toNat

/-- The copy of a declaration fits into the unit as long as its position can be counted. -/
theorem wellFormed_append_copy {u : SourceUnit} {d : Decl} (hd : d ∈ u.decls)
    (hcount : u.decls.length < UInt32.size) :
    WellFormed (u.decls ++ [Builder.copy (.ofIndex u.decls.length) d]) u.types where
  dense i e he := by
    by_cases hlast : i = u.decls.length
    · rw [hlast, List.getElem?_concat_length, Option.some_inj] at he
      rw [hlast, ← he]
      exact index_ofIndex_eq_iff.2 hcount
    · have hbound := (List.getElem?_eq_some_iff.1 he).1
      rw [List.length_append, List.length_singleton] at hbound
      have hold : i < u.decls.length := by omega
      rw [List.getElem?_append_left hold] at he
      exact u.wellFormed.dense i e he
  tagged key kind target hentry htarget := by
    have hold := u.wellFormed.tagged key kind target hentry htarget
    rw [List.length_append]
    omega
  defined e he target htarget := by
    rw [List.mem_append, List.mem_singleton] at he
    rcases he with he | rfl
    · obtain ⟨f, hf, hself⟩ := u.wellFormed.defined e he target htarget
      exact ⟨f, getElem?_append_of_some hf, hself⟩
    · obtain ⟨f, _, hf, hid⟩ := exists_defining hd
      cases htarget
      refine ⟨f, getElem?_append_of_some hf, ?_⟩
      cases hlink : f.definition with
      | none => exact Or.inl rfl
      | some link =>
        have hidentity : f.identity = ⟨link⟩ := by simp [Decl.identity, hlink]
        rw [← hid, hidentity]
        exact Or.inr rfl
  registered e he := by
    rw [List.mem_append, List.mem_singleton] at he
    rcases he with he | rfl
    · exact u.wellFormed.registered e he
    · exact u.wellFormed.registered d hd

/-- Redeclaring a declaration of a unit makes a unit, unless positions run out, and the one that
repeats the declaration. -/
theorem build_redeclare {steps : List Step} {u : SourceUnit} (h : build steps = .ok u)
    {earlier : DeclId} (hhas : u.Has earlier) :
    ((∃ v, build (steps ++ [.redeclare earlier]) = .ok v) ↔ u.decls.length < UInt32.size) ∧
      ∀ v, build (steps ++ [.redeclare earlier]) = .ok v → ∃ d copy, u.Redeclares v d copy := by
  obtain ⟨d, hd⟩ := has_iff.1 hhas
  obtain ⟨hdecls, htypes⟩ := build_eq_ok_iff.1 h
  have hiff : ∀ v, build (steps ++ [.redeclare earlier]) = .ok v ↔
      v.decls = u.decls ++ [Builder.copy (.ofIndex u.decls.length) d] ∧ v.types = u.types := by
    intro v
    have hget : (Builder.after steps).decls[earlier.index]? = some d := by
      rw [hdecls]
      exact hd
    rw [build_eq_ok_iff, Builder.after_concat, Builder.apply, Builder.decls_redeclare _ hget,
      Builder.types_redeclare, Builder.nextId, hdecls, htypes, @eq_comm _ v.decls,
      @eq_comm _ v.types]
  refine ⟨⟨?_, ?_⟩, ?_⟩
  · intro hv
    obtain ⟨v, hv⟩ := hv
    obtain ⟨hv, _⟩ := (hiff v).1 hv
    rw [← index_ofIndex_eq_iff]
    exact v.wellFormed.dense _ (Builder.copy (.ofIndex u.decls.length) d)
      (by rw [hv, List.getElem?_concat_length])
  · intro hcount
    exact ⟨⟨_, u.types, wellFormed_append_copy (mem_of_decl? hd) hcount⟩, (hiff _).2 ⟨rfl, rfl⟩⟩
  · intro v hv
    obtain ⟨hv, hvtypes⟩ := (hiff v).1 hv
    exact ⟨d, _, mem_of_decl? hd, hvtypes, hv, Builder.identity_copy _ d, Builder.alike_copy _ d⟩

end InteropWitness.SourceUnit

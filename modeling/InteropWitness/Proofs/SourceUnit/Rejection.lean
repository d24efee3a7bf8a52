import InteropWitness.Proofs.SourceUnit.Steps

namespace InteropWitness.SourceUnit

open Builder WellFormed

theorem build_eq_error_iff {steps : List Step} {e : UnitError} :
    build steps = .error e ↔ fault? (after steps).decls (after steps).types = some e := by
  rw [build, assemble, TypeTable.ofList_entries, ← after]
  simp only
  split
  · next other hother => rw [hother, Except.error.injEq, Option.some_inj]
  · next hnone =>
    constructor
    · intro h
      cases h
    · intro h
      rw [hnone] at h
      cases h

theorem build_succeeds_iff {steps : List Step} :
    (∃ u, build steps = .ok u) ↔ WellFormed (after steps).decls (after steps).types := by
  constructor
  · intro h
    obtain ⟨u, hu⟩ := h
    obtain ⟨hdecls, htypes⟩ := build_eq_ok_iff.1 hu
    rw [hdecls, htypes]
    exact u.wellFormed
  · intro h
    exact ⟨⟨_, _, h⟩, build_eq_ok_iff.2 ⟨rfl, rfl⟩⟩

section References

variable {types : TypeTable} {step : Step}

theorem find?_referencedTypes {d : Decl} (hkind : step.kind? = some d.kind)
    (hown : ∀ ty ∈ step.registers, ty ∈ types.keys) :
    (d.referencedTypes.find? fun ty => !types.contains ty) =
      step.references.find? fun ty => !types.contains ty := by
  have hown : ∀ ty ∈ step.registers, types.contains ty = true :=
    fun ty hty => OrderedMap.contains_iff.2 (hown ty hty)
  unfold Decl.referencedTypes
  cases step with
  | builtin name kind => cases hkind
  | dependent name => cases hkind
  | plainType name => cases hkind
  | record name spec selfTypes =>
    obtain hkind := Option.some.inj hkind
    have hname : types.contains name = true := hown name List.mem_cons_self
    rw [← hkind, Step.references]
    cases hspec : spec.specialization with
    | none => simp [hname]
    | some s =>
      have hself : types.contains s.selfType = true := by
        apply hown
        simp [Step.registers, RecordSpec.selfType?, hspec]
      simp [hname, hself, List.find?_append]
  | enumeration name isScoped inLibrary =>
    obtain hkind := Option.some.inj hkind
    have hname : types.contains name = true := hown name List.mem_cons_self
    rw [← hkind]
    simp [Step.references, hname]
  | function name spec =>
    obtain hkind := Option.some.inj hkind
    rw [← hkind, Step.references]
    cases hmethod : spec.decl.method <;> simp [hmethod]
  | other name inLibrary =>
    obtain hkind := Option.some.inj hkind
    rw [← hkind]
    rfl
  | redeclare earlier => cases hkind

/-- A step adds a fault only where it refers to an unknown type itself. -/
theorem findSome?_referenceFault_apply {b : Builder}
    (hown : ∀ ty ∈ step.registers, ty ∈ types.keys) :
    (b.apply step).decls.findSome? (referenceFault? types) =
      (b.decls.findSome? (referenceFault? types)).or
        ((step.references.find? fun ty => !types.contains ty).map
          (.unknownType b.nextId step.name)) := by
  rcases b.decls_apply step with ⟨hfalse, hsame⟩ | ⟨_, d, hadds, hadd⟩
  · rw [hsame, Step.references_of_not_declares hfalse]
    simp
  · rw [hadd, List.findSome?_append, List.findSome?_singleton]
    cases hadds with
    | new hkind inLibrary =>
      rw [referenceFault?, find?_referencedTypes hkind hown]
    | @again earlier original horiginal =>
      cases hold : b.decls.findSome? (referenceFault? types) with
      | some e => rfl
      | none =>
        have hnone : referenceFault? types original = none :=
          List.findSome?_eq_none_iff.1 hold original (List.mem_of_getElem? horiginal)
        have hcopy : referenceFault? types (copy b.nextId original) = none := by
          rw [referenceFault?_eq_none_iff] at hnone ⊢
          exact hnone
        rw [hcopy]
        rfl
    | unknown hnone => rfl

variable {steps : List Step}

theorem referenceFault_eq_none_iff (hown : ∀ step ∈ steps, ∀ ty ∈ step.registers, ty ∈ types.keys) :
    (after steps).decls.findSome? (referenceFault? types) = none ↔
      ∀ step ∈ steps, ∀ ty ∈ step.references, ty ∈ types.keys := by
  induction steps using List.reverseRecOn with
  | nil => simp [after, decls_initial]
  | append_singleton steps step ih =>
    rw [List.forall_mem_append, List.forall_mem_singleton] at hown
    rw [after_concat, findSome?_referenceFault_apply hown.2, Option.or_eq_none_iff, ih hown.1,
      List.forall_mem_append, List.forall_mem_singleton]
    simp [OrderedMap.contains_iff]

/-- `step` is the first of the steps that refers to an unknown type, and does so after `before`. -/
structure FirstUnknown (known : List TypeKey) (steps before : List Step) (step : Step)
    (ty : TypeKey) : Prop where
  split : before ++ [step] <+: steps
  earlier : ∀ s ∈ before, ∀ ty ∈ s.references, ty ∈ known
  unknown : step.references.find? (· ∉ known) = some ty

theorem not_contains_eq {known : List TypeKey} (hknown : ∀ ty, ty ∈ types.keys ↔ ty ∈ known) :
    (fun ty => !types.contains ty) = fun ty => decide (ty ∉ known) := by
  funext ty
  rw [Bool.eq_iff_iff, Bool.not_eq_true', ← Bool.not_eq_true, OrderedMap.contains_iff, hknown,
    decide_eq_true_iff]

theorem firstUnknown_of_referenceFault {known : List TypeKey}
    (hknown : ∀ ty, ty ∈ types.keys ↔ ty ∈ known)
    (hown : ∀ step ∈ steps, ∀ ty ∈ step.registers, ty ∈ types.keys) {e : UnitError}
    (h : (after steps).decls.findSome? (referenceFault? types) = some e) :
    ∃ before step ty, FirstUnknown known steps before step ty ∧
      e = .unknownType (after before).nextId step.name ty := by
  induction steps using List.reverseRecOn with
  | nil => simp [after, decls_initial] at h
  | append_singleton steps step ih =>
    rw [List.forall_mem_append, List.forall_mem_singleton] at hown
    rw [after_concat, findSome?_referenceFault_apply hown.2, Option.or_eq_some_iff] at h
    rcases h with hold | ⟨hnone, hnew⟩
    · obtain ⟨before, s, ty, hfirst, he⟩ := ih hown.1 hold
      have hsplit := hfirst.split.trans (List.prefix_append steps [step])
      exact ⟨before, s, ty, ⟨hsplit, hfirst.earlier, hfirst.unknown⟩, he⟩
    · obtain ⟨ty, hty, he⟩ := Option.map_eq_some_iff.1 hnew
      have hearlier : ∀ s ∈ steps, ∀ ty ∈ s.references, ty ∈ known := by
        intro s hs ty hty
        rw [← hknown]
        exact (referenceFault_eq_none_iff hown.1).1 hnone s hs ty hty
      rw [not_contains_eq hknown] at hty
      exact ⟨steps, step, ty, ⟨List.prefix_rfl, hearlier, hty⟩, he.symm⟩

end References

variable {steps : List Step}

theorem registers_mem_keys {step : Step} (hstep : step ∈ steps) {ty : TypeKey}
    (hty : ty ∈ step.registers) : ty ∈ (after steps).types.keys := by
  rw [mem_keys_after, registered, List.mem_append]
  exact Or.inr (List.mem_flatMap.2 ⟨step, hstep, hty⟩)

theorem index_lt_of_tag {key : TypeKey} {kind : TypeKind} {target : DeclId}
    (hentry : (key, kind) ∈ (after steps).types.entries) (htarget : kind.tagDecl? = some target) :
    target.index < (after steps).decls.length :=
  tagged_after steps key kind target (OrderedMap.get?_eq_some_iff.2 hentry) htarget

theorem findSome?_congr {α β : Type} {items : List α} {f g : α → Option β}
    (h : ∀ a ∈ items, f a = g a) : items.findSome? f = items.findSome? g := by
  induction items with
  | nil => rfl
  | cons a rest ih =>
    rw [List.forall_mem_cons] at h
    rw [List.findSome?_cons, List.findSome?_cons, h.1, ih h.2]

theorem references_hold_iff :
    (∀ d ∈ (after steps).decls, ∀ ty ∈ d.referencedTypes, ty ∈ (after steps).types.keys) ↔
      ∀ step ∈ steps, ∀ ty ∈ step.references, ty ∈ registered steps := by
  have hown : ∀ step ∈ steps, ∀ ty ∈ step.registers, ty ∈ (after steps).types.keys :=
    fun _ hstep _ => registers_mem_keys hstep
  simp only [← mem_keys_after]
  rw [← referenceFault_eq_none_iff hown, List.findSome?_eq_none_iff]
  simp only [referenceFault?_eq_none_iff]

/-- The declaration at the id stands for itself. -/
def Settled (steps : List Step) (id : DeclId) : Prop :=
  ∃ d, (after steps).decls[id.index]? = some d ∧ d.identity = ⟨id⟩

theorem settled_iff {id : DeclId} :
    Settled steps id ↔ ∃ d, (after steps).decls[id.index]? = some d ∧
      (d.definition = none ∨ d.definition = some id) := by
  refine exists_congr fun d => and_congr_right fun hd => ?_
  rw [Decl.identity, Identity.mk.injEq]
  cases d.definition with
  | none => simpa using id_of_index hd
  | some target => simp

/-- What dangles when it is made decides about all links to definitions. -/
theorem links_hold_iff :
    (∀ d ∈ (after steps).decls, ∀ target, d.definition = some target → Settled steps target) ↔
      ∀ earlier, Dangling steps earlier → Settled steps earlier := by
  constructor
  · intro h earlier hdangling
    obtain ⟨before, hprefix, hunknown⟩ := hdangling
    obtain ⟨d, hadds, hd⟩ := exists_getElem?_of_step hprefix rfl
    refine h d (List.mem_of_getElem? hd) earlier ?_
    cases hadds with
    | new hkind => cases hkind
    | again horiginal =>
      have hlength := (List.getElem?_eq_some_iff.1 horiginal).1
      exact absurd (exists_returns_iff.2 hlength) hunknown
    | unknown => rfl
  · intro h d hd target htarget
    rcases linked_after hd target htarget with hdangling | ⟨e, he, hnone⟩
    · exact h target hdangling
    · exact settled_iff.2 ⟨e, he, Or.inl hnone⟩

theorem wellFormed_after_iff :
    WellFormed (after steps).decls (after steps).types ↔
      steps.countP Step.declares ≤ UInt32.size ∧
      (∀ step ∈ steps, ∀ ty ∈ step.references, ty ∈ registered steps) ∧
      ∀ earlier, Dangling steps earlier → Settled steps earlier := by
  rw [← dense_after_iff, ← references_hold_iff, ← links_hold_iff]
  constructor
  · intro h
    exact ⟨h.dense, h.registered, fun d hd target htarget =>
      settled_iff.2 (h.defined d hd target htarget)⟩
  · intro h
    obtain ⟨hdense, hreferences, hlinks⟩ := h
    exact {
      dense := hdense
      tagged := fun _ _ _ => index_lt_of_tag
      defined := fun d hd target htarget => settled_iff.1 (hlinks d hd target htarget)
      registered := hreferences }

/-- For all steps: building fails exactly if they declare more than ids can count, or refer to a
type that none of them registers, or redeclare an id that no step before had returned and whose
declaration, if there is one in the end, does not stand for itself. -/
theorem build_fails_iff (steps : List Step) :
    (∃ e, build steps = .error e) ↔
      UInt32.size < steps.countP Step.declares ∨
      (∃ step ∈ steps, ∃ ty ∈ step.references, ty ∉ registered steps) ∨
      ∃ earlier, Dangling steps earlier ∧ ¬Settled steps earlier := by
  have hfails : (∃ e, build steps = .error e) ↔ ¬∃ u, build steps = .ok u := by
    cases build steps <;> simp
  rw [hfails, build_succeeds_iff, wellFormed_after_iff]
  simp only [not_and_or, not_forall, exists_prop, Nat.not_le]

/-- A redeclaration may name the id that it gets itself, and then it stands for itself. -/
theorem build_succeeds_dangling :
    Dangling [.redeclare ⟨0⟩] ⟨0⟩ ∧ ∃ u, build [.redeclare ⟨0⟩] = .ok u := by
  refine ⟨⟨[], List.prefix_rfl, ?_⟩, ?_⟩
  · rw [exists_returns_iff]
    decide
  · rw [build_succeeds_iff, ← fault?_eq_none_iff]
    decide

section Known

variable (hcount : steps.countP Step.declares ≤ UInt32.size)

include hcount in
theorem exists_step_of_returns {step : Step} {id : DeclId} (h : Returns steps step id) :
    ∃ before d, before ++ [step] <+: steps ∧ (after before).Adds step d ∧
      (after steps).decls[id.index]? = some d := by
  obtain ⟨before, hprefix, hdeclares, rfl⟩ := h
  obtain ⟨d, hadds, hd⟩ := exists_getElem?_of_step hprefix hdeclares
  have hindex := dense_after_iff.2 hcount _ d hd
  rw [hadds.id_eq] at hindex
  exact ⟨before, d, hprefix, hadds, by rw [hindex]; exact hd⟩

variable (hknown : Known steps)
include hcount hknown

theorem fault_of_known : fault? (after steps).decls (after steps).types =
    (after steps).decls.findSome? (referenceFault? (after steps).types) := by
  have hposition : positionFault? 0 (after steps).decls = none := by
    simp only [positionFault?_eq_none_iff, Nat.zero_add]
    exact dense_after_iff.2 hcount
  have htypes : (after steps).types.entries.findSome? (typeFault? (after steps).decls) = none := by
    rw [List.findSome?_eq_none_iff]
    intro entry hentry
    rw [typeFault?_eq_none_iff]
    exact fun target htarget => index_lt_of_tag hentry htarget
  have hlinks : ∀ d ∈ (after steps).decls, definitionFault? (after steps).decls d = none := by
    intro d hd
    rw [definitionFault?_eq_none_iff]
    intro target htarget
    have hsettled := links_hold_iff.2 fun earlier hdangling =>
      absurd hdangling (hknown.not_dangling earlier)
    exact settled_iff.1 (hsettled d hd target htarget)
  rw [fault?, hposition, htypes, Option.none_or, Option.none_or]
  refine findSome?_congr fun d hd => ?_
  rw [hlinks d hd, Option.none_or]

theorem identity?_of_redeclaration {u : SourceUnit} (hu : build steps = .ok u) {a b : DeclId}
    (h : Returns steps (.redeclare b) a) : u.identity? a = u.identity? b := by
  obtain ⟨hdecls, _⟩ := build_eq_ok_iff.1 hu
  obtain ⟨before, d, hprefix, hadds, hd⟩ := exists_step_of_returns hcount h
  cases hadds with
  | new hkind => cases hkind
  | @again _ original horiginal =>
    have hbefore := (List.prefix_append before _).trans hprefix
    have hkept := getElem?_after_of_prefix hbefore horiginal
    rw [identity?, identity?, decl?, decl?, ← hdecls, hd, hkept]
    rfl
  | unknown hnone =>
    have hreturned := exists_returns_iff.1 (hknown before b hprefix)
    exact absurd hreturned (Nat.not_lt.2 (List.getElem?_eq_none_iff.1 hnone))

theorem identity?_of_chain {u : SourceUnit} (hu : build steps = .ok u) {a b : DeclId}
    (h : Relation.ReflTransGen (fun a b => Returns steps (.redeclare b) a) a b)
    {step : Step} {kind : DeclKind} (hstep : Returns steps step b)
    (hkind : step.kind? = some kind) : u.identity? a = some ⟨b⟩ := by
  induction h using Relation.ReflTransGen.head_induction_on with
  | refl =>
    obtain ⟨hdecls, _⟩ := build_eq_ok_iff.1 hu
    obtain ⟨before, d, _, hadds, hd⟩ := exists_step_of_returns hcount hstep
    have hid : d.id = b := id_of_index hd
    have hnone : d.definition = none := by
      cases hadds with
      | new => rfl
      | again => cases hkind
      | unknown => cases hkind
    rw [identity?, decl?, ← hdecls, hd, Option.map_some, Decl.identity, hnone, hid]
    rfl
  | head hab _ ih => rw [identity?_of_redeclaration hcount hknown hu hab, ih]

end Known

/-- For all steps that declare no more than ids can count and redeclare only ids that steps before
have returned: building succeeds exactly if all types that a declared record or function refers to
are registered by some step, be it a later one, or are builtin from the start. The only error there
can be is the first reference to another type, by the first declaration that has one. A
redeclaration, of a redeclaration perhaps, resolves to the entity that was declared first. -/
theorem build_of_known (steps : List Step) (hcount : steps.countP Step.declares ≤ UInt32.size)
    (hknown : Known steps) :
    ((∃ u, build steps = .ok u) ↔
      ∀ step ∈ steps, ∀ ty ∈ step.references, ty ∈ registered steps) ∧
    (∀ e, build steps = .error e →
      ∃ before step ty, FirstUnknown (registered steps) steps before step ty ∧
        e = .unknownType (after before).nextId step.name ty) ∧
    ∀ u, build steps = .ok u → ∀ a b,
      Relation.ReflTransGen (fun a b => Returns steps (.redeclare b) a) a b →
      ∀ step kind, Returns steps step b → step.kind? = some kind → u.identity? a = some ⟨b⟩ := by
  refine ⟨?_, ?_, ?_⟩
  · rw [build_succeeds_iff, wellFormed_after_iff, and_iff_right hcount]
    exact and_iff_left fun earlier hdangling => absurd hdangling (hknown.not_dangling earlier)
  · intro e he
    have hown : ∀ step ∈ steps, ∀ ty ∈ step.registers, ty ∈ (after steps).types.keys :=
      fun step hstep ty => registers_mem_keys hstep
    rw [build_eq_error_iff, fault_of_known hcount hknown] at he
    exact firstUnknown_of_referenceFault (fun ty => mem_keys_after) hown he
  · intro u hu a b hchain step kind hstep hkind
    exact identity?_of_chain hcount hknown hu hchain hstep hkind

/-- A handle that is redeclared twice, before the types that it refers to are there. -/
def handleSteps : List Step :=
  [.record "class pxr::Handle<pxr::Path>" ⟨true, [⟨"class pxr::Object", .publicAccess⟩], [],
      some ⟨"pxr::Handle", "pxr::Handle<T>", ["class pxr::Path"]⟩⟩,
    .redeclare ⟨0⟩, .redeclare ⟨1⟩,
    .record "class pxr::Path" ⟨true, [], [⟨.value "bool", .publicAccess, true, true, false, 0⟩],
      none⟩,
    .record "class pxr::Object" ⟨true, [⟨"pxr::Handle<T>", .privateAccess⟩], [], none⟩]

theorem build_of_handleSteps :
    handleSteps.countP Step.declares ≤ UInt32.size ∧ Known handleSteps ∧
      ∃ u, build handleSteps = .ok u ∧ u.identity? ⟨2⟩ = some ⟨⟨0⟩⟩ := by
  have hcount : handleSteps.countP Step.declares ≤ UInt32.size := by decide
  have hknown : Known handleSteps := by
    have hhandle := known_nil.concat handleSteps[0] fun earlier h => by cases h
    have hagain := hhandle.concat (.redeclare ⟨0⟩) fun earlier h => by cases h; decide
    have honceMore := hagain.concat (.redeclare ⟨1⟩) fun earlier h => by cases h; decide
    have hpath := honceMore.concat handleSteps[3] fun earlier h => by cases h
    exact hpath.concat handleSteps[4] fun earlier h => by cases h
  have hreturns : ∀ before step, before ++ [step] <+: handleSteps → step.declares = true →
      Returns handleSteps step (.ofIndex (before.countP Step.declares)) := by
    intro before step hprefix hdeclares
    exact ⟨before, hprefix, hdeclares, by rw [nextId, length_decls_after]⟩
  have hreferences : ∀ step ∈ handleSteps, ∀ ty ∈ step.references,
      ty ∈ registered handleSteps := by decide
  obtain ⟨hsucceeds, _, hchains⟩ := build_of_known handleSteps hcount hknown
  obtain ⟨u, hu⟩ := hsucceeds.2 hreferences
  have hlast := hreturns (handleSteps.take 2) (.redeclare ⟨1⟩) ⟨handleSteps.drop 3, rfl⟩ rfl
  have hmiddle := hreturns (handleSteps.take 1) (.redeclare ⟨0⟩) ⟨handleSteps.drop 2, rfl⟩ rfl
  have hfirst := hreturns [] handleSteps[0] ⟨handleSteps.drop 1, rfl⟩ rfl
  exact ⟨hcount, hknown, u, hu,
    hchains u hu ⟨2⟩ ⟨0⟩ (.head hlast (.single hmiddle)) _ _ hfirst rfl⟩

end InteropWitness.SourceUnit

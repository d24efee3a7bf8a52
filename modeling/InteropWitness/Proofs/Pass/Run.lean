import InteropWitness.Pass.Lifecycle
import InteropWitness.Proofs.OrderedMap

namespace InteropWitness

theorem Attempt.each_eq_foldl {α σ : Type} {step : α → σ → Attempt σ}
    (h : ∀ a s, (step a s).2 = none) (items : List α) (s : σ) :
    each step items s = (items.foldl (fun s a => (step a s).1) s, none) := by
  induction items generalizing s with
  | nil => rfl
  | cons a rest ih =>
    have hstep : step a s = ((step a s).1, none) := by rw [← h a s]
    rw [each, hstep]
    exact ih _

theorem Attempt.each_eq_of_fails {α σ : Type} {step : α → σ → Attempt σ} {items : List α} {s : σ}
    {v : Violation} (h : ∀ a ∈ items, step a s = (s, none) ∨ step a s = (s, some v))
    (hfails : ∃ a ∈ items, step a s = (s, some v)) : each step items s = (s, some v) := by
  induction items with
  | nil => simp at hfails
  | cons a rest ih =>
    obtain ⟨hstep | hstep, hrest⟩ := List.forall_mem_cons.1 h
    · obtain ⟨b, hb, hfail⟩ := hfails
      have hne : b ≠ a := by
        rintro rfl
        rw [hstep] at hfail
        cases hfail
      rw [each, hstep]
      exact ih hrest ⟨b, List.mem_of_ne_of_mem hne hb, hfail⟩
    · rw [each, hstep]

namespace Pass

variable {σ ρ : Type} (p : Pass σ ρ) (ctx : Context)

/-- The state after a traversal in which no visit fails. -/
def gathered : σ := (p.visited ctx.unit).foldl (fun s d => (p.visit ctx d s).1) p.initial

/-- Visits succeed, and finalizing an entry gives it the value that `settle` has for it and touches
no other. `Kept` says what finalizing leaves of the evidence. -/
structure Settles (Kept : σ → Prop) (settle : Identity → ρ → ρ) : Prop where
  visits : ∀ d s, (p.visit ctx d s).2 = none
  gathers : Kept (p.gathered ctx)
  finalizes : ∀ s entity v, Kept s → entity ∈ (p.store (p.gathered ctx)).keys →
    (p.store s).get? entity = some v → ∃ t, p.finalize ctx entity s = (t, none) ∧ Kept t ∧
      p.store t = (p.store s).assign entity (settle entity v)

variable {p ctx} {Kept : σ → Prop} {settle : Identity → ρ → ρ}

theorem undecided?_eq_none_iff [Verdict ρ] {s : σ} :
    p.undecided? ctx s = none ↔ ∀ e ∈ (p.store s).entries, Verdict.isUnknown e.2 = false := by
  simp only [undecided?, Option.map_eq_none_iff, List.find?_eq_none, Bool.not_eq_true]

theorem visitAll_gathered (h : ∀ d s, (p.visit ctx d s).2 = none) :
    p.visitAll ctx p.start = (⟨.visiting, p.gathered ctx⟩, none) := by
  simp [visitAll, start, gathered, Attempt.each_eq_foldl h]

theorem run_eq_error [Verdict ρ] {s : σ} {v : Violation}
    (hvisits : ∀ d s, (p.visit ctx d s).2 = none)
    (hfinal : Attempt.each (p.finalize ctx) (p.store (p.gathered ctx)).keys (p.gathered ctx) =
      (s, some v)) : p.run ctx = .error v := by
  simp only [run, visitAll_gathered hvisits, finalizeAll, if_true, hfinal]

namespace Settles

theorem each_finalize (h : p.Settles ctx Kept settle) {entities : List Identity} {s : σ}
    (hs : Kept s) (hknown : ∀ entity ∈ entities, entity ∈ (p.store (p.gathered ctx)).keys)
    (hnd : entities.Nodup) (hsub : ∀ entity ∈ entities, entity ∈ (p.store s).keys) :
    ∃ t, Attempt.each (p.finalize ctx) entities s = (t, none) ∧ Kept t ∧
      p.store t = (p.store s).mapValues fun entity v =>
        if entity ∈ entities then settle entity v else v := by
  induction entities generalizing s with
  | nil => exact ⟨s, rfl, hs, by simp [OrderedMap.mapValues_eq_self]⟩
  | cons entity rest ih =>
    rw [List.nodup_cons] at hnd
    have hmem : entity ∈ (p.store s).keys := hsub entity (by simp)
    obtain ⟨v, hv⟩ := OrderedMap.exists_get?_of_mem hmem
    obtain ⟨t, hstep, ht, hstore⟩ := h.finalizes s entity v hs (hknown entity (by simp)) hv
    rw [OrderedMap.assign_eq_mapValues settle hv] at hstore
    have htkeys : (p.store t).keys = (p.store s).keys := by
      rw [hstore, OrderedMap.keys_mapValues]
    obtain ⟨t', heach, hkept, hrest⟩ := ih ht (fun other ho => hknown other (by simp [ho])) hnd.2
      (fun other ho => by rw [htkeys]; exact hsub other (by simp [ho]))
    refine ⟨t', by rw [Attempt.each, hstep]; exact heach, hkept, ?_⟩
    rw [hrest, hstore, OrderedMap.mapValues_mapValues]
    congr 1
    funext other value
    by_cases he : other = entity
    · subst he
      simp [hnd.1]
    · simp [he]

theorem finalizeAll_gathered [Verdict ρ] (h : p.Settles ctx Kept settle)
    (hdecided : ∀ entity v, (p.store (p.gathered ctx)).get? entity = some v →
      Verdict.isUnknown (settle entity v) = false) :
    ∃ t, p.finalizeAll ctx ⟨.visiting, p.gathered ctx⟩ = (⟨.finalizing, t⟩, none) ∧
      p.store t = (p.store (p.gathered ctx)).mapValues settle := by
  obtain ⟨t, heach, _, hstore⟩ := h.each_finalize h.gathers (fun _ he => he)
    (p.store (p.gathered ctx)).nodup_keys (fun _ he => he)
  have hsettled : p.store t = (p.store (p.gathered ctx)).mapValues settle := by
    rw [hstore]
    apply OrderedMap.mapValues_congr
    intro entity v hv
    rw [if_pos (OrderedMap.mem_keys_of_get? hv)]
  have hundecided : p.undecided? ctx t = none := by
    rw [undecided?_eq_none_iff, hsettled]
    intro e he
    obtain ⟨e₀, he₀, rfl⟩ := List.mem_map.1 he
    exact hdecided e₀.1 e₀.2 (OrderedMap.get?_eq_some_iff.2 he₀)
  refine ⟨t, ?_, hsettled⟩
  simp only [finalizeAll, if_true, heach, hundecided]

theorem run_eq [Verdict ρ] (h : p.Settles ctx Kept settle)
    (hdecided : ∀ entity v, (p.store (p.gathered ctx)).get? entity = some v →
      Verdict.isUnknown (settle entity v) = false) :
    p.run ctx = .ok ((p.store (p.gathered ctx)).mapValues settle) := by
  obtain ⟨t, hfinal, hstore⟩ := h.finalizeAll_gathered hdecided
  simp [run, visitAll_gathered h.visits, hfinal, freeze, hstore]

end Settles

end Pass

namespace Context

variable {ρ : Type} [Verdict ρ] {ctx : Context} {verdict : Identity → Decl → ρ}

/-- The value of an entry after finalizing: an open one gets the verdict on the definition of its
key, and a decided one stays. -/
def settled (ctx : Context) (verdict : Identity → Decl → ρ) (entity : Identity) (v : ρ) : ρ :=
  if Verdict.isUnknown v then ((ctx.unit.defining? entity).map (verdict entity)).getD v else v

theorem settled_of_decided {entity : Identity} {v : ρ} (h : Verdict.isUnknown v = false) :
    ctx.settled verdict entity v = v := by
  rw [settled, h]
  rfl

theorem settled_of_open {entity : Identity} {v : ρ} {d : Decl} (h : Verdict.isUnknown v = true)
    (hd : ctx.unit.defining? entity = some d) :
    ctx.settled verdict entity v = verdict entity d := by
  rw [settled, h, hd]
  rfl

end Context

namespace Pass

variable {σ ρ : Type} [Verdict ρ] (p : Pass σ ρ) (ctx : Context)

/-- The traversal leaves the entries `opened`, all of them identities of the unit, and finalizing
one that is open gives it a decided verdict on its definition. -/
structure Decides (Kept : σ → Prop) (opened : Store ρ) (verdict : Identity → Decl → ρ) :
    Prop where
  visits : ∀ d s, (p.visit ctx d s).2 = none
  gathers : Kept (p.gathered ctx) ∧ p.store (p.gathered ctx) = opened
  resolves : ∀ entity ∈ opened.keys, ∃ d ∈ ctx.unit.decls, ctx.unit.defining? entity = some d ∧
    d.identity = entity
  keeps : ∀ s entity v, (p.store s).get? entity = some v → Verdict.isUnknown v = false →
    p.finalize ctx entity s = (s, none)
  closes : ∀ s entity v d, Kept s → (p.store s).get? entity = some v →
    Verdict.isUnknown v = true → ctx.unit.defining? entity = some d →
      ∃ t, p.finalize ctx entity s = (t, none) ∧ Kept t ∧
        p.store t = (p.store s).assign entity (verdict entity d)
  decided : ∀ entity d, Verdict.isUnknown (verdict entity d) = false

namespace Decides

variable {p ctx} {Kept : σ → Prop} {opened : Store ρ} {verdict : Identity → Decl → ρ}

theorem settles (h : p.Decides ctx Kept opened verdict) :
    p.Settles ctx Kept (ctx.settled verdict) where
  visits := h.visits
  gathers := h.gathers.1
  finalizes s entity v hs hmem hv := by
    rw [h.gathers.2] at hmem
    obtain ⟨d, _, hd, _⟩ := h.resolves entity hmem
    cases hopen : Verdict.isUnknown v with
    | false =>
      rw [Context.settled_of_decided hopen, OrderedMap.assign_self hv]
      exact ⟨s, h.keeps s entity v hv hopen, hs, rfl⟩
    | true =>
      rw [Context.settled_of_open hopen hd]
      exact h.closes s entity v d hs hv hopen hd

theorem isUnknown_settled (h : p.Decides ctx Kept opened verdict) {entity : Identity}
    (hmem : entity ∈ opened.keys) (v : ρ) :
    Verdict.isUnknown (ctx.settled verdict entity v) = false := by
  obtain ⟨d, _, hd, _⟩ := h.resolves entity hmem
  cases hopen : Verdict.isUnknown v with
  | false => rw [Context.settled_of_decided hopen, hopen]
  | true => rw [Context.settled_of_open hopen hd, h.decided entity d]

theorem run_eq (h : p.Decides ctx Kept opened verdict) :
    p.run ctx = .ok (opened.mapValues (ctx.settled verdict)) := by
  rw [h.settles.run_eq, h.gathers.2]
  intro entity v hv
  rw [h.gathers.2] at hv
  exact h.isUnknown_settled (OrderedMap.mem_keys_of_get? hv) v

end Decides

end Pass

end InteropWitness

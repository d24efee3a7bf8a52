import InteropWitness.Proofs.Pass.Run

namespace InteropWitness

/-- What is asked of a pass before it is frozen. -/
inductive Call where
  | visitAll
  | finalizeAll
deriving DecidableEq, Repr

def Call.phase : Call → Phase
  | visitAll => .unvisited
  | finalizeAll => .visiting

namespace Pass

variable {σ ρ : Type} (p : Pass σ ρ) (ctx : Context)

variable {p ctx} in
theorem phase_visitAll {g : Progress σ} (h : g.phase = .unvisited) :
    (p.visitAll ctx g).1.phase = .visiting := by
  rw [visitAll, if_pos h]

variable [Verdict ρ]

def call (c : Call) (g : Progress σ) : Attempt (Progress σ) :=
  match c with
  | .visitAll => p.visitAll ctx g
  | .finalizeAll => p.finalizeAll ctx g

/-- The progress after the calls, whatever they return. -/
def afterCalls (calls : List Call) (g : Progress σ) : Progress σ :=
  calls.foldl (fun g c => (p.call ctx c g).1) g

/-- The violations that the accepted calls end in, in their order. -/
def faults : List Call → Progress σ → List Violation
  | [], _ => []
  | c :: rest, g =>
    (if g.phase = c.phase then (p.call ctx c g).2.toList else []) ++
      faults rest (p.call ctx c g).1

/-- A store as a complete life of the pass leaves it: every declaration in scope was visited, then
every entry finalized, none of it failed, and nothing is left undecided. -/
structure Completes (store : Store ρ) : Prop where
  lived : ∃ s t, Attempt.each (p.visit ctx) (p.visited ctx.unit) p.initial = (s, none) ∧
    Attempt.each (p.finalize ctx) (p.store s).keys s = (t, none) ∧ p.store t = store
  decided : ∀ e ∈ store.entries, Verdict.isUnknown e.2 = false

/-- How far calls can bring the pass, and the violations that it met on the way. -/
inductive Lived : Progress σ → List Violation → Prop
  | started : Lived p.start []
  | visited : Lived (p.visitAll ctx p.start).1 (p.visitAll ctx p.start).2.toList
  | finalized : Lived (p.finalizeAll ctx (p.visitAll ctx p.start).1).1
      ((p.visitAll ctx p.start).2.toList ++
        (p.finalizeAll ctx (p.visitAll ctx p.start).1).2.toList)

variable {p ctx}

theorem phase_finalizeAll {g : Progress σ} (h : g.phase = .visiting) :
    (p.finalizeAll ctx g).1.phase = .finalizing := by
  rw [finalizeAll, if_pos h]
  split <;> rfl

theorem call_of_ne {c : Call} {g : Progress σ} (h : g.phase ≠ c.phase) :
    (p.call ctx c g).1 = g := by
  cases c with
  | visitAll => exact congrArg Prod.fst (if_neg h)
  | finalizeAll => exact congrArg Prod.fst (if_neg h)

theorem Lived.call {g : Progress σ} {met : List Violation} (h : p.Lived ctx g met) (c : Call) :
    p.Lived ctx (p.call ctx c g).1
      (met ++ if g.phase = c.phase then (p.call ctx c g).2.toList else []) := by
  by_cases hphase : g.phase = c.phase
  · rw [if_pos hphase]
    cases h with
    | started =>
      cases c with
      | visitAll => exact .visited
      | finalizeAll => cases hphase
    | visited =>
      rw [phase_visitAll rfl] at hphase
      cases c with
      | visitAll => cases hphase
      | finalizeAll => exact .finalized
    | finalized =>
      rw [phase_finalizeAll (phase_visitAll rfl)] at hphase
      cases c <;> cases hphase
  · rw [if_neg hphase, List.append_nil, call_of_ne hphase]
    exact h

theorem Lived.afterCalls {g : Progress σ} {met : List Violation} (h : p.Lived ctx g met)
    (calls : List Call) : p.Lived ctx (p.afterCalls ctx calls g) (met ++ p.faults ctx calls g) := by
  induction calls generalizing g met with
  | nil =>
    rw [faults, List.append_nil]
    exact h
  | cons c rest ih =>
    rw [faults, ← List.append_assoc]
    exact ih (h.call c)

theorem lived_afterCalls (calls : List Call) :
    p.Lived ctx (p.afterCalls ctx calls p.start) (p.faults ctx calls p.start) :=
  Lived.started.afterCalls calls

theorem Lived.of_freeze {g : Progress σ} {met : List Violation} {store : Store ρ}
    (h : p.Lived ctx g met) (hfrozen : p.freeze g = .ok store) :
    p.store (p.finalizeAll ctx (p.visitAll ctx p.start).1).1.state = store ∧
      met = (p.visitAll ctx p.start).2.toList ++
        (p.finalizeAll ctx (p.visitAll ctx p.start).1).2.toList := by
  rw [freeze] at hfrozen
  cases h with
  | started => cases hfrozen
  | visited =>
    rw [phase_visitAll rfl] at hfrozen
    cases hfrozen
  | finalized =>
    rw [if_pos (phase_finalizeAll (phase_visitAll rfl))] at hfrozen
    exact ⟨Except.ok.inj hfrozen, rfl⟩

theorem run_eq_ok_iff {store : Store ρ} :
    p.run ctx = .ok store ↔
      (p.visitAll ctx p.start).2 = none ∧
        (p.finalizeAll ctx (p.visitAll ctx p.start).1).2 = none ∧
          p.store (p.finalizeAll ctx (p.visitAll ctx p.start).1).1.state = store := by
  have hphase : (p.finalizeAll ctx (p.visitAll ctx p.start).1).1.phase = .finalizing :=
    phase_finalizeAll (phase_visitAll rfl)
  unfold run
  generalize hvisit : p.visitAll ctx p.start = visit at hphase ⊢
  obtain ⟨g, _ | v⟩ := visit
  · generalize hfinal : p.finalizeAll ctx g = final at hphase ⊢
    obtain ⟨g', _ | v⟩ := final
    · simp only [hfinal]
      change g'.phase = .finalizing at hphase
      simp [freeze, hphase]
    · simp [hfinal]
  · simp

/-- A run that succeeds leaves out nothing, and one that would leave out nothing succeeds. -/
theorem run_eq_ok_iff_completes {store : Store ρ} :
    p.run ctx = .ok store ↔ p.Completes ctx store := by
  have hvisited : p.visitAll ctx p.start =
      (⟨.visiting, (Attempt.each (p.visit ctx) (p.visited ctx.unit) p.initial).1⟩,
        (Attempt.each (p.visit ctx) (p.visited ctx.unit) p.initial).2) := if_pos rfl
  rw [run_eq_ok_iff, hvisited]
  constructor
  · intro h
    obtain ⟨hvisit, hfinal, hstore⟩ := h
    generalize heach : Attempt.each (p.visit ctx) (p.visited ctx.unit) p.initial = visits
      at hvisit hfinal hstore
    obtain ⟨s, violation⟩ := visits
    cases hvisit
    simp only [finalizeAll, if_true] at hfinal hstore
    generalize heach' : Attempt.each (p.finalize ctx) (p.store s).keys s = finals at hfinal hstore
    obtain ⟨t, _ | v⟩ := finals
    · refine ⟨⟨s, t, heach, heach', hstore⟩, fun e he => ?_⟩
      rw [← hstore] at he
      exact undecided?_eq_none_iff.1 hfinal e he
    · cases hfinal
  · intro h
    obtain ⟨s, t, heach, heach', rfl⟩ := h.lived
    simp only [heach, finalizeAll, if_true, heach', true_and, and_true]
    exact undecided?_eq_none_iff.2 h.decided

/-- A frozen store is that of a run exactly if no accepted call failed. -/
theorem run_eq_iff_of_frozen {calls : List Call} {store : Store ρ}
    (hfrozen : p.freeze (p.afterCalls ctx calls p.start) = .ok store) :
    p.run ctx = .ok store ↔ p.faults ctx calls p.start = [] := by
  obtain ⟨hstore, hmet⟩ := (lived_afterCalls calls).of_freeze hfrozen
  rw [hmet, run_eq_ok_iff, List.append_eq_nil_iff, Option.toList_eq_nil_iff,
    Option.toList_eq_nil_iff]
  simp only [hstore, and_true]

/-- A pass that decides its entries one by one meets no violation, whatever is asked of it. -/
theorem Decides.faults_eq_nil {Kept : σ → Prop} {opened : Store ρ} {verdict : Identity → Decl → ρ}
    (h : p.Decides ctx Kept opened verdict) (calls : List Call) :
    p.faults ctx calls p.start = [] := by
  obtain ⟨hvisit, hfinal, _⟩ := run_eq_ok_iff.1 h.run_eq
  have hlived : p.Lived ctx _ _ := lived_afterCalls calls
  generalize p.faults ctx calls p.start = met at hlived ⊢
  generalize p.afterCalls ctx calls p.start = g at hlived
  cases hlived with
  | started => rfl
  | visited => rw [hvisit]; rfl
  | finalized => rw [hvisit, hfinal]; rfl

theorem Decides.frozen_eq {Kept : σ → Prop} {opened : Store ρ} {verdict : Identity → Decl → ρ}
    (h : p.Decides ctx Kept opened verdict) {calls : List Call} {store : Store ρ}
    (hfrozen : p.freeze (p.afterCalls ctx calls p.start) = .ok store) :
    p.run ctx = .ok store :=
  (run_eq_iff_of_frozen hfrozen).2 (h.faults_eq_nil calls)

end Pass

end InteropWitness

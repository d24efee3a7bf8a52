import InteropWitness.Proofs.Pass.Calls
import InteropWitness.Proofs.SourceUnit.Inheritance
import Mathlib.Data.List.Induction

namespace InteropWitness

namespace Attempt

variable {α σ ε : Type} (step : α → σ → Attempt σ)

/-- The items that steps are taken for: all of them, or those up to the first that fails. -/
def reached : List α → σ → List α
  | [], _ => []
  | a :: rest, s =>
    match step a s with
    | (t, none) => a :: reached rest t
    | (_, some _) => [a]

def noting (note : α → ε) (a : α) (s : σ × List ε) : Attempt (σ × List ε) :=
  (((step a s.1).1, s.2 ++ [note a]), (step a s.1).2)

/-- The steps for `taken` go through the items as far as they can: up to the end, or up to the first
step that fails. -/
def GoesThrough (items : List α) (s : σ) (taken : List α) : Prop :=
  taken <+: items ∧ (taken = items ∨ ∃ before a, taken = before ++ [a] ∧
    (each step before s).2 = none ∧ (step a (each step before s).1).2.isSome = true)

variable {step}

theorem prefix_reached (items : List α) (s : σ) : reached step items s <+: items := by
  induction items generalizing s with
  | nil => exact List.prefix_rfl
  | cons a rest ih =>
    rw [reached]
    split
    · next t _ => exact (List.prefix_cons_inj a).2 (ih t)
    · exact ⟨rest, rfl⟩

theorem goesThrough_reached (items : List α) (s : σ) :
    GoesThrough step items s (reached step items s) := by
  refine ⟨prefix_reached items s, ?_⟩
  induction items generalizing s with
  | nil => exact Or.inl rfl
  | cons a rest ih =>
    rw [reached]
    split
    · next t hstep =>
      rcases ih t with hall | ⟨before, b, htaken, hbefore, hfails⟩
      · exact Or.inl (congrArg (a :: ·) hall)
      · have heach : each step (a :: before) s = each step before t := by rw [each, hstep]
        exact Or.inr ⟨a :: before, b, by rw [htaken]; rfl, by rw [heach]; exact hbefore,
          by rw [heach]; exact hfails⟩
    · next t v hstep =>
      exact Or.inr ⟨[], a, rfl, rfl, by rw [each, hstep]; rfl⟩

/-- Notes do not change what the steps do, and they are of the items that steps are taken for. -/
theorem each_noting (note : α → ε) (items : List α) (s : σ) (journal : List ε) :
    each (noting step note) items (s, journal) =
      (((each step items s).1, journal ++ (reached step items s).map note),
        (each step items s).2) := by
  induction items generalizing s journal with
  | nil => simp [each, reached]
  | cons a rest ih =>
    rw [each, each, reached, noting]
    generalize step a s = taken
    obtain ⟨t, _ | v⟩ := taken
    · simp only [ih, List.map_cons, List.append_assoc, List.singleton_append]
    · rfl

end Attempt

/-- A step that a pass takes. -/
inductive Pass.Event where
  | visited (d : Decl)
  | finalized (entity : Identity)

def Progress.unjournaled {σ : Type} (g : Progress (σ × List Pass.Event)) : Progress σ :=
  ⟨g.phase, g.state.1⟩

def Call.operation : Call → Operation
  | visitAll => .visit
  | finalizeAll => .finalize

def Call.nextPhase : Call → Phase
  | visitAll => .visiting
  | finalizeAll => .finalizing

theorem Progress.eq_of_unjournaled {σ : Type} {g : Progress (σ × List Pass.Event)}
    {h : Progress σ} {journal : List Pass.Event} (hplain : g.unjournaled = h)
    (hjournal : g.state.2 = journal) : g = ⟨h.phase, (h.state, journal)⟩ := by
  subst hplain hjournal
  rfl

namespace Pass

variable {σ ρ : Type} (p : Pass σ ρ) (ctx : Context)

/-- The pass with a journal of the steps that it takes. -/
def journaled : Pass (σ × List Event) ρ where
  id := p.id
  scope := p.scope
  initial := (p.initial, [])
  visit ctx := Attempt.noting (p.visit ctx) .visited
  finalize ctx := Attempt.noting (p.finalize ctx) .finalized
  store s := p.store s.1

theorem nodup_visited (u : SourceUnit) : (p.visited u).Nodup := by
  have hdecls : u.decls.Nodup := List.Nodup.of_map (fun d : Decl => d.id) u.nodup_ids
  rw [visited]
  cases p.scope with
  | wholeUnit => exact hdecls
  | library => exact hdecls.filter _

variable {p ctx}

theorem visitAll_unvisited (s : σ) :
    p.visitAll ctx ⟨.unvisited, s⟩ =
      (⟨.visiting, (Attempt.each (p.visit ctx) (p.visited ctx.unit) s).1⟩,
        (Attempt.each (p.visit ctx) (p.visited ctx.unit) s).2) := if_pos rfl

theorem visitAll_journaled (s : σ) (journal : List Event) :
    p.journaled.visitAll ctx ⟨.unvisited, (s, journal)⟩ =
      (⟨.visiting, ((p.visitAll ctx ⟨.unvisited, s⟩).1.state,
          journal ++ (Attempt.reached (p.visit ctx) (p.visited ctx.unit) s).map .visited)⟩,
        (p.visitAll ctx ⟨.unvisited, s⟩).2) := by
  have heach : Attempt.each (p.journaled.visit ctx) (p.journaled.visited ctx.unit) (s, journal) =
      _ := Attempt.each_noting Event.visited (p.visited ctx.unit) s journal
  rw [visitAll_unvisited, visitAll_unvisited, heach]

variable (p ctx) in
def reachedDecls : List Decl := Attempt.reached (p.visit ctx) (p.visited ctx.unit) p.initial

variable (p ctx) in
def reachedEntities : List Identity :=
  Attempt.reached (p.finalize ctx) (p.store (p.visitAll ctx p.start).1.state).keys
    (p.visitAll ctx p.start).1.state

theorem nodup_reachedDecls : (p.reachedDecls ctx).Nodup :=
  (p.nodup_visited ctx.unit).sublist (Attempt.prefix_reached _ _).sublist

theorem nodup_reachedEntities : (p.reachedEntities ctx).Nodup :=
  (OrderedMap.nodup_keys _).sublist (Attempt.prefix_reached _ _).sublist

variable [Verdict ρ]

theorem finalizeAll_visiting (s : σ) :
    p.finalizeAll ctx ⟨.visiting, s⟩ =
      (⟨.finalizing, (Attempt.each (p.finalize ctx) (p.store s).keys s).1⟩,
        (Attempt.each (p.finalize ctx) (p.store s).keys s).2.or
          (p.undecided? ctx (Attempt.each (p.finalize ctx) (p.store s).keys s).1)) := by
  rw [finalizeAll, if_pos rfl]
  generalize Attempt.each (p.finalize ctx) (p.store s).keys s = finals
  obtain ⟨t, _ | v⟩ := finals <;> rfl

theorem finalizeAll_journaled (s : σ) (journal : List Event) :
    p.journaled.finalizeAll ctx ⟨.visiting, (s, journal)⟩ =
      (⟨.finalizing, ((p.finalizeAll ctx ⟨.visiting, s⟩).1.state,
          journal ++ (Attempt.reached (p.finalize ctx) (p.store s).keys s).map .finalized)⟩,
        (p.finalizeAll ctx ⟨.visiting, s⟩).2) := by
  have heach : Attempt.each (p.journaled.finalize ctx) (p.journaled.store (s, journal)).keys
      (s, journal) = _ := Attempt.each_noting Event.finalized (p.store s).keys s journal
  rw [finalizeAll_visiting, finalizeAll_visiting, heach]
  rfl

/-- A call in its phase leads to the next one. Any other call is refused and changes nothing. -/
theorem call_cases (c : Call) (g : Progress σ) :
    (g.phase = c.phase ∧ (p.call ctx c g).1.phase = c.nextPhase) ∨
      (g.phase ≠ c.phase ∧
        p.call ctx c g = (g, some (.wrongPhase p.id c.operation g.phase))) := by
  by_cases h : g.phase = c.phase
  · refine Or.inl ⟨h, ?_⟩
    cases c with
    | visitAll => exact phase_visitAll h
    | finalizeAll => exact phase_finalizeAll h
  · refine Or.inr ⟨h, ?_⟩
    cases c with
    | visitAll => exact if_neg h
    | finalizeAll => exact if_neg h

/-- The journal does not change what comes of a call. -/
theorem unjournaled_call (c : Call) (g : Progress (σ × List Event)) :
    (p.journaled.call ctx c g).1.unjournaled = (p.call ctx c g.unjournaled).1 := by
  obtain ⟨phase, s, journal⟩ := g
  by_cases h : phase = c.phase
  · subst h
    cases c with
    | visitAll =>
      change (p.journaled.visitAll ctx ⟨.unvisited, (s, journal)⟩).1.unjournaled = _
      rw [visitAll_journaled]
      rfl
    | finalizeAll =>
      change (p.journaled.finalizeAll ctx ⟨.visiting, (s, journal)⟩).1.unjournaled =
        (p.finalizeAll ctx ⟨.visiting, s⟩).1
      rw [finalizeAll_journaled, finalizeAll_visiting]
      rfl
  · rw [call_of_ne h, call_of_ne h]

theorem unjournaled_afterCalls (calls : List Call) (g : Progress (σ × List Event)) :
    (p.journaled.afterCalls ctx calls g).unjournaled =
      p.afterCalls ctx calls g.unjournaled := by
  induction calls generalizing g with
  | nil => rfl
  | cons c rest ih =>
    change (p.journaled.afterCalls ctx rest (p.journaled.call ctx c g).1).unjournaled = _
    rw [ih, unjournaled_call]
    rfl

/-- Between its two operations a pass stands where its visits have left it. -/
theorem afterCalls_of_visiting {calls : List Call}
    (h : (p.afterCalls ctx calls p.start).phase = .visiting) :
    p.afterCalls ctx calls p.start = (p.visitAll ctx p.start).1 := by
  have hlived : p.Lived ctx (p.afterCalls ctx calls p.start) (p.faults ctx calls p.start) :=
    lived_afterCalls calls
  generalize p.faults ctx calls p.start = met at hlived
  generalize p.afterCalls ctx calls p.start = g at h hlived
  cases hlived with
  | started => cases h
  | visited => rfl
  | finalized =>
    rw [phase_finalizeAll (phase_visitAll rfl)] at h
    cases h

/-- A pass is finalizing once a call for it has come when its declarations were visited. -/
theorem exists_before_finalizing {calls : List Call}
    (h : (p.afterCalls ctx calls p.start).phase = .finalizing) :
    ∃ before, before ++ [.finalizeAll] <+: calls ∧
      (p.afterCalls ctx before p.start).phase = .visiting := by
  induction calls using List.reverseRecOn with
  | nil => cases h
  | append_singleton calls c ih =>
    have hlast : p.afterCalls ctx (calls ++ [c]) p.start =
        (p.call ctx c (p.afterCalls ctx calls p.start)).1 := by
      rw [afterCalls, List.foldl_concat, afterCalls]
    rw [hlast] at h
    rcases p.call_cases c (p.afterCalls ctx calls p.start) with ⟨hphase, hnext⟩ | ⟨_, hrefused⟩
    · rw [hnext] at h
      cases c with
      | visitAll => cases h
      | finalizeAll => exact ⟨calls, List.prefix_rfl, hphase⟩
    · rw [hrefused] at h
      obtain ⟨before, hbefore, hvisiting⟩ := ih h
      exact ⟨before, hbefore.trans (List.prefix_append calls [c]), hvisiting⟩

variable (p ctx) in
/-- The steps of a pass in some calls: it has visited `decls` and then finalized `entities`. -/
structure Took (calls : List Call) (decls : List Decl) (entities : List Identity) : Prop where
  once : decls.Nodup ∧ entities.Nodup
  visitsNone : (p.afterCalls ctx calls p.start).phase = .unvisited → decls = []
  /-- Declarations are visited in the order of traversal. -/
  visits : (p.afterCalls ctx calls p.start).phase ≠ .unvisited →
    Attempt.GoesThrough (p.visit ctx) (p.visited ctx.unit) p.initial decls
  finalizesNone : (p.afterCalls ctx calls p.start).phase ≠ .finalizing → entities = []
  /-- Entries are finalized in the order of the store that finalizing starts with. -/
  finalizes : (p.afterCalls ctx calls p.start).phase = .finalizing →
    ∃ before, before ++ [.finalizeAll] <+: calls ∧
      (p.afterCalls ctx before p.start).phase = .visiting ∧
        Attempt.GoesThrough (p.finalize ctx)
          (p.store (p.afterCalls ctx before p.start).state).keys
          (p.afterCalls ctx before p.start).state entities

theorem took_started {calls : List Call} (h : p.afterCalls ctx calls p.start = p.start) :
    p.Took ctx calls [] [] where
  once := ⟨.nil, .nil⟩
  visitsNone _ := rfl
  visits hphase := absurd (by rw [h]; rfl) hphase
  finalizesNone _ := rfl
  finalizes hphase := by
    rw [h] at hphase
    cases hphase

theorem took_visited {calls : List Call}
    (h : p.afterCalls ctx calls p.start = (p.visitAll ctx p.start).1) :
    p.Took ctx calls (p.reachedDecls ctx) [] where
  once := ⟨nodup_reachedDecls, .nil⟩
  visitsNone hphase := by
    rw [h] at hphase
    cases hphase
  visits _ := Attempt.goesThrough_reached _ _
  finalizesNone _ := rfl
  finalizes hphase := by
    rw [h] at hphase
    cases hphase

theorem took_finalized {calls : List Call} (h : p.afterCalls ctx calls p.start =
      (p.finalizeAll ctx (p.visitAll ctx p.start).1).1) :
    p.Took ctx calls (p.reachedDecls ctx) (p.reachedEntities ctx) where
  once := ⟨nodup_reachedDecls, nodup_reachedEntities⟩
  visitsNone hphase := by
    rw [h, phase_finalizeAll (phase_visitAll rfl)] at hphase
    cases hphase
  visits _ := Attempt.goesThrough_reached _ _
  finalizesNone hphase := absurd (by rw [h, phase_finalizeAll (phase_visitAll rfl)]) hphase
  finalizes hphase := by
    obtain ⟨before, hbefore, hvisiting⟩ := exists_before_finalizing hphase
    refine ⟨before, hbefore, hvisiting, ?_⟩
    rw [afterCalls_of_visiting hvisiting]
    exact Attempt.goesThrough_reached _ _

/-- Whatever calls are made, and whatever they return: a pass visits every declaration in its scope
at most once, in the order of traversal, and no more of them after a visit that failed; after that
it finalizes every entry at most once, in the order that the store had before the first of them.
Every call either finds the pass in its phase and leads to the next one, or is refused as out of its
phase and changes nothing. -/
theorem journal_of_calls (p : Pass σ ρ) (ctx : Context) (calls : List Call) :
    (∃ decls entities, p.Took ctx calls decls entities ∧
      p.journaled.afterCalls ctx calls p.journaled.start =
        ⟨(p.afterCalls ctx calls p.start).phase, ((p.afterCalls ctx calls p.start).state,
          decls.map .visited ++ entities.map .finalized)⟩) ∧
    ∀ c : Call,
      ((p.afterCalls ctx calls p.start).phase = c.phase ∧
        (p.call ctx c (p.afterCalls ctx calls p.start)).1.phase = c.nextPhase) ∨
      ((p.afterCalls ctx calls p.start).phase ≠ c.phase ∧
        p.call ctx c (p.afterCalls ctx calls p.start) =
          (p.afterCalls ctx calls p.start, some (.wrongPhase p.id c.operation
            (p.afterCalls ctx calls p.start).phase))) := by
  refine ⟨?_, fun c => call_cases c _⟩
  have hsame : (p.journaled.afterCalls ctx calls p.journaled.start).unjournaled =
      p.afterCalls ctx calls p.start := unjournaled_afterCalls calls p.journaled.start
  have hlived : p.journaled.Lived ctx (p.journaled.afterCalls ctx calls p.journaled.start)
      (p.journaled.faults ctx calls p.journaled.start) := lived_afterCalls calls
  generalize p.journaled.faults ctx calls p.journaled.start = met at hlived
  generalize p.journaled.afterCalls ctx calls p.journaled.start = g at hsame hlived
  have hvisit : (p.journaled.visitAll ctx p.journaled.start).1.unjournaled =
      (p.visitAll ctx p.start).1 := unjournaled_call .visitAll p.journaled.start
  have hvisits : (p.journaled.visitAll ctx p.journaled.start).1 = ⟨.visiting,
      ((p.visitAll ctx p.start).1.state, (p.reachedDecls ctx).map .visited)⟩ :=
    congrArg Prod.fst (visitAll_journaled p.initial [])
  cases hlived with
  | started => exact ⟨[], [], took_started hsame.symm, Progress.eq_of_unjournaled hsame rfl⟩
  | visited =>
    refine ⟨p.reachedDecls ctx, [], took_visited (hsame.symm.trans hvisit),
      Progress.eq_of_unjournaled hsame ?_⟩
    rw [hvisits, List.map_nil, List.append_nil]
  | finalized =>
    have hfinal : (p.journaled.finalizeAll ctx
        (p.journaled.visitAll ctx p.journaled.start).1).1.unjournaled =
          (p.finalizeAll ctx (p.visitAll ctx p.start).1).1 := by
      rw [← hvisit]
      exact unjournaled_call .finalizeAll _
    refine ⟨p.reachedDecls ctx, p.reachedEntities ctx,
      took_finalized (hsame.symm.trans hfinal), Progress.eq_of_unjournaled hsame ?_⟩
    rw [hvisits, finalizeAll_journaled]
    rfl

end Pass

end InteropWitness

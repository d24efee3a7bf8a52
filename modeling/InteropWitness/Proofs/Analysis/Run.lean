import InteropWitness.Analysis
import InteropWitness.Proofs.Listing.RoundTrip
import InteropWitness.Proofs.Pass.Calls
import InteropWitness.Proofs.Relation.Run
import InteropWitness.Proofs.StringConversion.Run

namespace InteropWitness

namespace Analysis

variable (a : Analysis)

def relationContext : Relation → Context
  | .equality => a.context .equality none
  | .ordering =>
    a.context .ordering (some (Relation.resolved (a.context .equality none) .equality))

def relationStore (relation : Relation) : Store RelationVerdict :=
  Relation.resolved (a.relationContext relation) relation

def stringContext : Context :=
  a.context .stringConversion (some (a.relationStore .equality))

def stringStore : Store StringVerdict := StringConversion.resolved a.stringContext

def results : Results := ⟨a.relationStore .equality, a.relationStore .ordering, a.stringStore⟩

theorem ready_relationContext (relation : Relation) :
    Relation.Ready (a.relationContext relation) relation := by
  intro h
  subst h
  rfl

theorem relationContext_unit (relation : Relation) :
    (a.relationContext relation).unit = a.unit := by
  cases relation <;> rfl

theorem relationContext_config (relation : Relation) :
    (a.relationContext relation).config = a.config := by
  cases relation <;> rfl

theorem run_relation (relation : Relation) :
    (relation.analysis a.config).run (a.relationContext relation) =
      .ok (a.relationStore relation) := by
  have h := Relation.run_eq_resolved (a.ready_relationContext relation)
  rw [relationContext_config] at h
  exact h

/-- The pass order is right, every pass succeeds, and each reads what those before it left. -/
theorem run_eq_results : a.run = .ok a.results := by
  have horder : PassId.checkOrder PassId.runOrder = .ok () := rfl
  have hequality : (Relation.equality.analysis a.config).run (a.context .equality none) =
      .ok (a.relationStore .equality) := a.run_relation .equality
  have hordering : (Relation.ordering.analysis a.config).run
      (a.context .ordering (some (a.relationStore .equality))) =
        .ok (a.relationStore .ordering) := a.run_relation .ordering
  have hstring : (StringConversion.analysis a.config).run
      (a.context .stringConversion (some (a.relationStore .equality))) = .ok a.stringStore :=
    StringConversion.run_eq_resolved a.stringContext
  simp only [run, horder, hequality, hordering, hstring, bind, Except.bind, pure, Except.pure]
  rfl

end Analysis

/-- A store that is decided throughout, whose keys are identities of the unit, and that can be
written as a listing and as a snapshot. -/
structure Complete {ρ : Type} [Verdict ρ] (u : SourceUnit) (store : Store ρ) : Prop where
  decided : ∀ e ∈ store.entries, Verdict.isUnknown e.2 = false
  resolved : ∀ entity ∈ store.keys, ∃ d ∈ u.decls, u.defining? entity = some d ∧
    d.identity = entity
  rendered : ∃ text, Listing.render u store = .ok text
  snapshot : ∃ s, Snapshot.ofStore u store = .ok s

theorem Complete.of_entries {ρ : Type} [Verdict ρ] {u : SourceUnit} {store : Store ρ}
    (hdecided : ∀ e ∈ store.entries, Verdict.isUnknown e.2 = false)
    (hresolved : ∀ entity ∈ store.keys, ∃ d ∈ u.decls, u.defining? entity = some d ∧
      d.identity = entity) : Complete u store := by
  have hdefined : ∀ e ∈ store.entries, (u.defining? e.1).isSome = true := by
    intro e he
    obtain ⟨d, _, hd, _⟩ := hresolved e.1 (List.mem_map_of_mem he)
    rw [hd]
    rfl
  exact ⟨hdecided, hresolved, ⟨_, Listing.render_of_resolved hdefined⟩,
    ⟨_, Snapshot.ofStore_of_resolved hdefined⟩⟩

theorem Pass.Decides.complete {σ ρ : Type} [Verdict ρ] {p : Pass σ ρ} {ctx : Context}
    {Kept : σ → Prop} {opened : Store ρ} {verdict : Identity → Decl → ρ}
    (h : p.Decides ctx Kept opened verdict) :
    Complete ctx.unit (opened.mapValues (ctx.settled verdict)) := by
  apply Complete.of_entries
  · intro e he
    obtain ⟨e₀, he₀, rfl⟩ := List.mem_map.1 he
    exact h.isUnknown_settled (List.mem_map_of_mem he₀) e₀.2
  · intro entity hmem
    rw [OrderedMap.keys_mapValues] at hmem
    exact h.resolves entity hmem

namespace Analysis

/-- Every analysis runs to its end, whatever imports, enums and overrides it is given, and each of
its three stores is complete. -/
theorem run_succeeds (a : Analysis) :
    ∃ r, a.run = .ok r ∧ Complete a.unit r.equality ∧ Complete a.unit r.ordering ∧
      Complete a.unit r.stringConversion :=
  ⟨a.results, a.run_eq_results,
    (Relation.decides (a.ready_relationContext .equality)).complete,
    (Relation.decides (a.ready_relationContext .ordering)).complete,
    (StringConversion.decides a.stringContext).complete⟩

end Analysis

end InteropWitness

namespace InteropWitness.Analysis

/-- For every pass and whatever calls are made on it: a store that it freezes is one in which every
declaration in scope was visited and nothing is undecided, from steps that all succeeded, exactly if
every call that was accepted succeeded. -/
theorem frozen_completes_iff {σ ρ : Type} [Verdict ρ] (p : Pass σ ρ) (ctx : Context)
    (calls : List Call) {store : Store ρ}
    (hfrozen : p.freeze (p.afterCalls ctx calls p.start) = .ok store) :
    p.Completes ctx store ↔ p.faults ctx calls p.start = [] :=
  Pass.run_eq_ok_iff_completes.symm.trans (Pass.run_eq_iff_of_frozen hfrozen)

/-- A single record, imported as a value. -/
def paths : Analysis where
  unit :=
    { decls := [⟨⟨0⟩, "pxr::Path", none, true, .record ⟨"pxr::Path", [], [], none⟩⟩]
      types := OrderedMap.ofList [("pxr::Path", .record ⟨0⟩)]
      wellFormed := WellFormed.fault?_eq_none_iff.1 (by decide) }
  inputs := ⟨.ofList [(⟨⟨0⟩⟩, .value)], .empty⟩
  config := .default

/-- Calls out of their phase among those that make up a run. -/
theorem frozen_paths :
    ∃ store, (Relation.equality.analysis .default).freeze
        ((Relation.equality.analysis .default).afterCalls (paths.context .equality none)
          [.finalizeAll, .visitAll, .visitAll, .finalizeAll, .visitAll]
          (Relation.equality.analysis .default).start) = .ok store ∧
      (Relation.equality.analysis .default).Completes (paths.context .equality none) store := by
  have hfrozen : ∃ store, (Relation.equality.analysis .default).freeze
        ((Relation.equality.analysis .default).afterCalls (paths.context .equality none)
          [.finalizeAll, .visitAll, .visitAll, .finalizeAll, .visitAll]
          (Relation.equality.analysis .default).start) = .ok store := ⟨_, rfl⟩
  obtain ⟨store, hfrozen⟩ := hfrozen
  refine ⟨store, hfrozen, (frozen_completes_iff _ _ _ hfrozen).2 ?_⟩
  exact (Relation.decides (paths.ready_relationContext .equality)).faults_eq_nil _

/-- Without results of equality, ordering fails to finalize and is then frozen all the same. -/
theorem unordered_paths :
    (Relation.ordering.analysis .default).faults (paths.context .ordering none)
        [.visitAll, .finalizeAll] (Relation.ordering.analysis .default).start =
      [.missingDependency .ordering .equality] ∧
    ∃ store, (Relation.ordering.analysis .default).freeze
        ((Relation.ordering.analysis .default).afterCalls (paths.context .ordering none)
          [.visitAll, .finalizeAll] (Relation.ordering.analysis .default).start) = .ok store ∧
      store.get? ⟨⟨0⟩⟩ = some .unknown :=
  ⟨rfl, _, rfl, by decide⟩

variable (a : Analysis)

theorem frozen_relation (relation : Relation) {calls : List Call} {store : Store RelationVerdict}
    (hfrozen : (relation.analysis a.config).freeze ((relation.analysis a.config).afterCalls
      (a.relationContext relation) calls (relation.analysis a.config).start) = .ok store) :
    store = a.relationStore relation := by
  rw [← a.relationContext_config relation] at hfrozen
  have hrun := (Relation.decides (a.ready_relationContext relation)).frozen_eq hfrozen
  rw [relationContext_config, run_relation] at hrun
  exact (Except.ok.inj hrun).symm

theorem frozen_stringConversion {frozen : Option (Store RelationVerdict)} {calls : List Call}
    {store : Store StringVerdict}
    (hfrozen : (StringConversion.analysis a.config).freeze
      ((StringConversion.analysis a.config).afterCalls (a.context .stringConversion frozen) calls
        (StringConversion.analysis a.config).start) = .ok store) :
    store = StringConversion.resolved (a.context .stringConversion frozen) := by
  have hrun := (StringConversion.decides (a.context .stringConversion frozen)).frozen_eq hfrozen
  rw [StringConversion.run_eq_resolved] at hrun
  exact (Except.ok.inj hrun).symm

/-- For every analysis: whatever calls are made on a pass, in its context it freezes nothing but its
result of the analysis. -/
theorem frozen_eq_results (calls : List Call) :
    ∃ r, a.run = .ok r ∧
      (∀ store, (Relation.equality.analysis a.config).freeze
          ((Relation.equality.analysis a.config).afterCalls (a.context .equality none) calls
            (Relation.equality.analysis a.config).start) = .ok store → store = r.equality) ∧
      (∀ store, (Relation.ordering.analysis a.config).freeze
          ((Relation.ordering.analysis a.config).afterCalls
            (a.context .ordering (some r.equality)) calls
            (Relation.ordering.analysis a.config).start) = .ok store → store = r.ordering) ∧
      (∀ store, (StringConversion.analysis a.config).freeze
          ((StringConversion.analysis a.config).afterCalls
            (a.context .stringConversion (some r.equality)) calls
            (StringConversion.analysis a.config).start) = .ok store →
        store = r.stringConversion) := by
  refine ⟨a.results, a.run_eq_results, ?_, ?_, ?_⟩
  · intro store hfrozen
    exact a.frozen_relation .equality hfrozen
  · intro store hfrozen
    exact a.frozen_relation .ordering hfrozen
  · intro store hfrozen
    exact a.frozen_stringConversion hfrozen

end InteropWitness.Analysis

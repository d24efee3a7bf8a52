import InteropWitness.Proofs.Analysis.StringConversion
import Mathlib.Data.List.Basic

namespace InteropWitness.Pass

variable {σ ρ : Type} {p : Pass σ ρ} {ctx : Context}

/-- Handed the declarations one by one, and then the keys of its store in any order, the pass ends
without a violation, and its store says of every entity what `store` says. -/
def EndsIn (p : Pass σ ρ) (ctx : Context) (decls : List Decl) (store : Store ρ) : Prop :=
  ∃ s, Attempt.each (p.visit ctx) decls p.initial = (s, none) ∧
    ∀ entities, entities.Perm (p.store s).keys →
      ∃ t, Attempt.each (p.finalize ctx) entities s = (t, none) ∧
        ∀ entity, (p.store t).get? entity = store.get? entity

theorem EndsIn.congr {decls : List Decl} {store store' : Store ρ} (h : p.EndsIn ctx decls store)
    (hsame : ∀ entity, store.get? entity = store'.get? entity) : p.EndsIn ctx decls store' := by
  obtain ⟨s, hvisits, hfinal⟩ := h
  refine ⟨s, hvisits, fun entities hperm => ?_⟩
  obtain ⟨t, hfinalizes, hstore⟩ := hfinal entities hperm
  exact ⟨t, hfinalizes, fun entity => (hstore entity).trans (hsame entity)⟩

theorem Decides.endsIn [Verdict ρ] {Kept : σ → Prop} {opened : Store ρ}
    {verdict : Identity → Decl → ρ} (h : p.Decides ctx Kept opened verdict)
    {decls : List Decl} {s : σ}
    (hs : decls.foldl (fun s d => (p.visit ctx d s).1) p.initial = s) (hkept : Kept s)
    (hstore : ∀ entity, (p.store s).get? entity = opened.get? entity) :
    p.EndsIn ctx decls (opened.mapValues (ctx.settled verdict)) := by
  refine ⟨s, by rw [Attempt.each_eq_foldl h.visits, hs], fun entities hperm => ?_⟩
  have hknown : ∀ entity ∈ (p.store s).keys, entity ∈ (p.store (p.gathered ctx)).keys := by
    intro entity hmem
    obtain ⟨v, hv⟩ := OrderedMap.exists_get?_of_mem hmem
    rw [hstore, ← h.gathers.2] at hv
    exact OrderedMap.mem_keys_of_get? hv
  obtain ⟨t, hfinalizes, _, ht⟩ := h.settles.each_finalize hkept
    (fun entity hmem => hknown entity (hperm.mem_iff.1 hmem))
    (hperm.nodup_iff.2 (p.store s).nodup_keys) (fun entity hmem => hperm.mem_iff.1 hmem)
  refine ⟨t, hfinalizes, fun entity => ?_⟩
  rw [ht, OrderedMap.get?_mapValues, OrderedMap.get?_mapValues, ← hstore]
  refine Option.map_congr fun v hv => ?_
  rw [if_pos (hperm.mem_iff.2 (OrderedMap.mem_keys_of_get? hv))]

end InteropWitness.Pass

namespace InteropWitness.Relation

variable {ctx : Context} {relation : Relation} {decls : List Decl}

theorem knows_of_perm (hperm : decls.Perm ctx.unit.decls) :
    Knows ctx relation
      (.ofList ((decls.filterMap (·.function?)).flatMap (contributions ctx relation))) := by
  apply WitnessSet.find?_ofList_congr
  intro e
  exact ((hperm.filterMap _).flatMap_right _).mem_iff

theorem get?_foldl_enter_of_perm (hperm : decls.Perm ctx.unit.decls) (entity : Identity) :
    (decls.foldl (fun store d => enter ctx d store) .empty).get? entity =
      (opened ctx).get? entity := by
  have hempty : Fits ctx .empty := by
    intro entity v hv
    cases hv
  ext v
  rw [opened, get?_foldl_enter_iff hempty, get?_foldl_enter_iff hempty]
  simp only [hperm.mem_iff]

theorem endsIn_resolved (h : Ready ctx relation) (hperm : decls.Perm ctx.unit.decls) :
    (relation.analysis ctx.config).EndsIn ctx decls (resolved ctx relation) :=
  (decides h).endsIn (foldl_visit decls ⟨.empty, .empty⟩) (knows_of_perm hperm)
    (get?_foldl_enter_of_perm hperm)

/-- Ordering reads of equality what it says of each entity, and not in which order. -/
theorem get?_resolved_congr (ctx : Context) {frozen frozen' : Store RelationVerdict}
    (h : ∀ entity, frozen.get? entity = frozen'.get? entity) (entity : Identity) :
    (resolved { ctx with frozenEquality := some frozen } .ordering).get? entity =
      (resolved { ctx with frozenEquality := some frozen' } .ordering).get? entity := by
  have hverdict : verdict { ctx with frozenEquality := some frozen } .ordering =
      verdict { ctx with frozenEquality := some frozen' } .ordering := by
    funext entity d
    simp only [verdict, permits, Option.any_some, h entity]
    rfl
  simp only [resolved, OrderedMap.get?_mapValues, hverdict]
  rfl

end InteropWitness.Relation

namespace InteropWitness.StringConversion

variable {ctx : Context} {decls : List Decl}

theorem mem_candidates_of_perm (hperm : decls.Perm ctx.unit.decls) (ty : TypeKey) :
    ty ∈ (decls.filterMap (·.function?)).foldl (fun tys f => visitFunction ctx f tys) [] ↔
      ty ∈ candidates ctx := by
  rw [candidates, mem_foldl_visitFunction, mem_foldl_visitFunction]
  simp only [(hperm.filterMap _).mem_iff]

theorem get?_foldl_enter_of_perm (hu : ctx.unit.RedeclaredAlike)
    (hperm : decls.Perm ctx.unit.decls) (entity : Identity) :
    (decls.foldl (fun store d => enter ctx d store) .empty).get? entity =
      (opened ctx).get? entity := by
  by_cases hentity : ∃ d ∈ decls, d.identity = entity
  · obtain ⟨d, hd, rfl⟩ := hentity
    rw [get?_foldl_enter_of_alike hu (fun e he => hperm.mem_iff.1 he) hd,
      get?_opened_of_alike hu (hperm.mem_iff.1 hd)]
  · have hnone : ∀ ds : List Decl, (∀ d ∈ ds, d ∈ decls) →
        (ds.filter fun d => d.identity = entity) = [] := by
      intro ds hsub
      rw [List.filter_eq_nil_iff]
      intro d hd hid
      exact hentity ⟨d, hsub d hd, of_decide_eq_true hid⟩
    rw [get?_foldl_enter, get?_opened, hnone decls fun _ hd => hd,
      hnone ctx.unit.decls fun _ hd => hperm.mem_iff.2 hd]
    rfl

theorem endsIn_resolved (hu : ctx.unit.RedeclaredAlike) (hperm : decls.Perm ctx.unit.decls) :
    (analysis ctx.config).EndsIn ctx decls (resolved ctx) :=
  (decides ctx).endsIn (foldl_visit decls ⟨[], .empty⟩) (mem_candidates_of_perm hperm)
    (get?_foldl_enter_of_perm hu hperm)

theorem resolved_frozen (ctx : Context) (frozen : Option (Store RelationVerdict)) :
    resolved { ctx with frozenEquality := frozen } = resolved ctx := by
  have hopened : opened { ctx with frozenEquality := frozen } = opened ctx := rfl
  have hcandidates : candidates { ctx with frozenEquality := frozen } = candidates ctx := rfl
  simp only [resolved, hopened, hcandidates]
  rfl

end InteropWitness.StringConversion

namespace InteropWitness.Analysis

variable (a : Analysis)

theorem endsIn_relation (relation : Relation) {decls : List Decl}
    (hperm : decls.Perm a.unit.decls) :
    (relation.analysis a.config).EndsIn (a.relationContext relation) decls
      (a.relationStore relation) := by
  rw [← a.relationContext_unit relation] at hperm
  have h := Relation.endsIn_resolved (a.ready_relationContext relation) hperm
  rw [relationContext_config] at h
  exact h

theorem endsIn_ordering {decls : List Decl} (hperm : decls.Perm a.unit.decls)
    {frozen : Store RelationVerdict}
    (hsame : ∀ entity, frozen.get? entity = (a.relationStore .equality).get? entity) :
    (Relation.ordering.analysis a.config).EndsIn (a.context .ordering (some frozen)) decls
      (a.relationStore .ordering) := by
  have hready : Relation.Ready (a.context .ordering (some frozen)) .ordering := fun _ => rfl
  exact (Relation.endsIn_resolved hready hperm).congr
    (Relation.get?_resolved_congr (a.context .ordering none) hsame)

/-- For every analysis and every order of the declarations of its unit: the pass of each relation
ends in the results of the analysis, ordering whenever it reads equality results of the same
content, and so does string conversion if all redeclarations repeat what they redeclare. -/
theorem results_of_any_order {decls : List Decl} (hperm : decls.Perm a.unit.decls) :
    ∃ r, a.run = .ok r ∧
      (Relation.equality.analysis a.config).EndsIn (a.context .equality none) decls r.equality ∧
      (∀ frozen : Store RelationVerdict,
        (∀ entity, frozen.get? entity = r.equality.get? entity) →
          (Relation.ordering.analysis a.config).EndsIn (a.context .ordering (some frozen)) decls
            r.ordering) ∧
      (a.unit.RedeclaredAlike → ∀ frozen : Option (Store RelationVerdict),
        (StringConversion.analysis a.config).EndsIn (a.context .stringConversion frozen) decls
          r.stringConversion) := by
  refine ⟨a.results, a.run_eq_results, ?_, ?_, ?_⟩
  · exact a.endsIn_relation .equality hperm
  · intro frozen hsame
    exact a.endsIn_ordering hperm hsame
  · intro hu frozen
    have hstore : a.stringStore = StringConversion.resolved (a.context .stringConversion frozen) :=
      StringConversion.resolved_frozen (a.context .stringConversion frozen) _
    have hends := @StringConversion.endsIn_resolved (a.context .stringConversion frozen) decls hu
      hperm
    rw [← hstore] at hends
    exact hends

/-- The insertion before the types, and a redeclaration before what it redeclares. -/
theorem results_of_reversed_labels :
    labels.unit.decls.reverse.Perm labels.unit.decls ∧ labels.unit.RedeclaredAlike ∧
      ∃ r, labels.run = .ok r ∧
        (Relation.equality.analysis labels.config).EndsIn (labels.context .equality none)
          labels.unit.decls.reverse r.equality ∧
        (Relation.ordering.analysis labels.config).EndsIn
          (labels.context .ordering (some r.equality)) labels.unit.decls.reverse r.ordering ∧
        (StringConversion.analysis labels.config).EndsIn (labels.context .stringConversion none)
          labels.unit.decls.reverse r.stringConversion := by
  have hperm : labels.unit.decls.reverse.Perm labels.unit.decls := List.reverse_perm _
  have hu : labels.unit.RedeclaredAlike := by decide
  obtain ⟨r, hr, hequality, hordering, hstring⟩ := results_of_any_order labels hperm
  exact ⟨hperm, hu, r, hr, hequality, hordering r.equality fun _ => rfl, hstring hu none⟩

end InteropWitness.Analysis

import InteropWitness.Proofs.Analysis.Extension
import InteropWitness.Proofs.Analysis.Relation

namespace InteropWitness

/-- `v` has the types of `u`, and behind the declarations of `u` it has functions. -/
structure SourceUnit.GainsFunctions (u v : SourceUnit) : Prop where
  types : v.types = u.types
  decls : ∃ functions, v.decls = u.decls ++ functions ∧
    ∀ d ∈ functions, d.function?.isSome = true

theorem Decl.exists_function {d : Decl} (h : d.function?.isSome = true) :
    ∃ f, d.kind = .function f := by
  unfold function? at h
  cases hkind : d.kind with
  | function f => exact ⟨f, rfl⟩
  | record r => simp [hkind] at h
  | enumeration e => simp [hkind] at h
  | other => simp [hkind] at h

theorem SourceUnit.GainsFunctions.extendedBy {u v : SourceUnit} (h : u.GainsFunctions v) :
    u.ExtendedBy v := by
  obtain ⟨functions, hdecls, hfunctions⟩ := h.decls
  refine ⟨h.types, ⟨functions, hdecls.symm⟩, fun d hd hrecord => ?_⟩
  rw [hdecls, List.mem_append] at hd
  rcases hd with hd | hd
  · exact ⟨d, hd, rfl⟩
  · obtain ⟨f, hf⟩ := Decl.exists_function (hfunctions d hd)
    simp [Decl.record?, hf] at hrecord

theorem foldl_append_of_inert {σ β : Type} {step step' : σ → β → σ} {items further : List β}
    (hsame : ∀ b ∈ items, ∀ s, step' s b = step s b) (hinert : ∀ b ∈ further, ∀ s, step' s b = s)
    (s : σ) : (items ++ further).foldl step' s = items.foldl step s := by
  have hfurther : ∀ t, further.foldl step' t = t := by
    intro t
    rw [List.foldl_ext step' (fun s _ => s) t fun s b hb => hinert b hb s]
    exact List.foldl_fixed further
  rw [List.foldl_append, hfurther]
  exact List.foldl_ext step' step s fun s b hb => hsame b hb s

/-- One store of a pass as it is with further evidence: it has the same keys, what was available
stays so, and what was decided before the pass was finalized is not decided again. -/
structure Pass.Grows {σ ρ : Type} [Verdict ρ] (p : Pass σ ρ) (ctx : Context) (old new : Store ρ) :
    Prop where
  keys : new.keys = old.keys
  available : ∀ entity v, old.get? entity = some v → Verdict.isAvailable v = true →
    ∃ w, new.get? entity = some w ∧ Verdict.isAvailable w = true
  visited : ∀ entity v, (p.store (p.gathered ctx)).get? entity = some v →
    Verdict.isUnknown v = false → old.get? entity = some v ∧ new.get? entity = some v

namespace Context

variable {ρ : Type} [Verdict ρ] {ctx ctx' : Context} {opened : Store ρ}
  {verdict verdict' : Identity → Decl → ρ}

/-- An entry that the traversal leaves in both contexts is decided in both, or both decide it from
the same definition. -/
theorem settled_cases (verdict verdict' : Identity → Decl → ρ) (h : ctx.ExtendedBy ctx')
    (hresolves : ∀ entity ∈ opened.keys, ∃ d ∈ ctx.unit.decls,
      ctx.unit.defining? entity = some d ∧ d.identity = entity)
    {entity : Identity} {v : ρ} (hv : opened.get? entity = some v) :
    (Verdict.isUnknown v = false ∧
        (opened.mapValues (ctx.settled verdict)).get? entity = some v ∧
        (opened.mapValues (ctx'.settled verdict')).get? entity = some v) ∨
      ∃ d, ctx.unit.Defines d ∧ ctx.unit.defining? entity = some d ∧
        (opened.mapValues (ctx.settled verdict)).get? entity = some (verdict entity d) ∧
        (opened.mapValues (ctx'.settled verdict')).get? entity = some (verdict' entity d) := by
  obtain ⟨d, hmem, hd, rfl⟩ := hresolves entity (OrderedMap.mem_keys_of_get? hv)
  have hd' : ctx'.unit.defining? d.identity = some d := by
    rw [h.unit.defining?_eq hmem, hd]
  rw [OrderedMap.get?_mapValues, OrderedMap.get?_mapValues, hv, Option.map_some, Option.map_some]
  cases hopen : Verdict.isUnknown v with
  | false =>
    rw [settled_of_decided hopen, settled_of_decided hopen]
    exact Or.inl ⟨rfl, rfl, rfl⟩
  | true =>
    rw [settled_of_open hopen hd, settled_of_open hopen hd']
    exact Or.inr ⟨d, hd, hd, rfl, rfl⟩

theorem grows_of_settled {σ : Type} {p : Pass σ ρ} (h : ctx.ExtendedBy ctx')
    (hstore : p.store (p.gathered ctx) = opened)
    (hresolves : ∀ entity ∈ opened.keys, ∃ d ∈ ctx.unit.decls,
      ctx.unit.defining? entity = some d ∧ d.identity = entity)
    (hverdict : ∀ entity d, ctx.unit.Defines d → Verdict.isAvailable (verdict entity d) = true →
      Verdict.isAvailable (verdict' entity d) = true) :
    p.Grows ctx (opened.mapValues (ctx.settled verdict))
      (opened.mapValues (ctx'.settled verdict')) where
  keys := by rw [OrderedMap.keys_mapValues, OrderedMap.keys_mapValues]
  available entity v hv havailable := by
    have hmem := OrderedMap.mem_keys_of_get? hv
    rw [OrderedMap.keys_mapValues] at hmem
    obtain ⟨old, hold⟩ := OrderedMap.exists_get?_of_mem hmem
    rcases settled_cases verdict verdict' h hresolves hold with
      ⟨_, hbefore, hafter⟩ | ⟨d, hd, _, hbefore, hafter⟩
    · rw [hv] at hbefore
      cases hbefore
      exact ⟨_, hafter, havailable⟩
    · rw [hv] at hbefore
      cases hbefore
      exact ⟨_, hafter, hverdict entity d hd havailable⟩
  visited entity v hv hdecided := by
    rw [hstore] at hv
    rw [OrderedMap.get?_mapValues, OrderedMap.get?_mapValues, hv, Option.map_some, Option.map_some,
      settled_of_decided hdecided, settled_of_decided hdecided]
    exact ⟨rfl, rfl⟩

end Context

namespace Relation

section Verdicts

variable {ctx ctx' : Context} (h : ctx.ExtendedBy ctx') {relation : Relation}
include h

theorem recorded_of_extended {a b : TypeKey} {p : WitnessProperties}
    (hp : WitnessSet.Recorded (witnesses ctx relation) a b p) :
    WitnessSet.Recorded (witnesses ctx' relation) a b p := by
  obtain ⟨e, he, hpair, hproperties⟩ := hp
  exact ⟨e, witnesses_subset h relation he, hpair, hproperties⟩

theorem hasWitness_of_extended {first second : TypeKey}
    (hw : HasWitness ctx relation first second) : HasWitness ctx' relation first second := by
  rw [← isSome_find?_witnesses, WitnessSet.isSome_find?_ofList] at hw ⊢
  obtain ⟨e, he, hpair⟩ := hw
  exact ⟨e, witnesses_subset h relation he, hpair⟩

theorem supported_of_extended {d : Decl} (hd : d ∈ ctx.unit.decls)
    (hs : Supported ctx relation d) : Supported ctx' relation d := by
  obtain ⟨first, hf, second, hs, hbool, hbool', hcompared⟩ := hs
  rw [Supported, h.unit.conversionClosure_eq hd, h.unit.isBool_eq, h.unit.isArithmetic_eq]
  refine ⟨first, hf, second, hs, hbool, hbool', ?_⟩
  rcases hcompared with harithmetic | hw
  · exact Or.inl harithmetic
  · exact Or.inr (hasWitness_of_extended h hw)

theorem forced_of_extended {d : Decl} : Forced ctx' relation d ↔ Forced ctx relation d := by
  rw [Forced, Forced, h.config]

variable {entity : Identity} {d : Decl}
  (hpermits : permits ctx relation entity = true → permits ctx' relation entity = true)
include hpermits

theorem isAvailable_verdict_of_extended (hd : d ∈ ctx.unit.decls)
    (hv : (verdict ctx relation entity d).isAvailable = true) :
    (verdict ctx' relation entity d).isAvailable = true := by
  rcases verdict_cases ctx relation entity d with ⟨_, hblocked⟩ | ⟨hopen, _⟩
  · rw [hblocked] at hv
    cases hv
  · by_cases hforced : Forced ctx relation d
    · rw [verdict, if_pos hopen, overridden_of_forced hforced] at hv
      cases hv
    · have hsupported := (isAvailable_verdict_iff hopen hforced).1 hv
      have hforced' : ¬Forced ctx' relation d := fun hf => hforced ((forced_of_extended h).1 hf)
      exact (isAvailable_verdict_iff (hpermits hopen) hforced').2
        (supported_of_extended h hd hsupported)

/-- The consumer goes on to find what it found, so an override goes on to hide it. -/
theorem verdict_eq_missed_of_extended (hd : ctx.unit.Defines d)
    (hv : verdict ctx relation entity d = .missedByConsumer) :
    verdict ctx' relation entity d = .missedByConsumer := by
  unfold verdict at hv
  split at hv
  · next hopen =>
    obtain ⟨hfound, hforced, hmissed⟩ := overridden_searchWitness_eq_missedByConsumer_iff.1 hv
    rw [SourceUnit.searchWitness_eq_foundByConsumer_iff hd] at hfound
    obtain ⟨ty, hty, hspecialization, hbool, hw⟩ := hfound
    rw [verdict, if_pos (hpermits hopen), overridden_of_extended h relation,
      searchWitness_of_extended h hd.mem, overridden_searchWitness_eq_missedByConsumer_iff,
      SourceUnit.searchWitness_eq_foundByConsumer_iff hd]
    rw [WitnessSet.find?_ofList_eq_direct_iff] at hw
    have hdirect := WitnessSet.find?_ofList_eq_direct_iff.2 (recorded_of_extended h hw)
    exact ⟨⟨ty, hty, hspecialization, hbool, hdirect⟩, hforced, hmissed⟩
  · cases hv

theorem verdict_eq_unavailable_of_extended (hforced : Forced ctx relation d)
    (hv : verdict ctx relation entity d = .unavailable) :
    verdict ctx' relation entity d = .unavailable := by
  unfold verdict at hv
  split at hv
  · next hopen =>
    rw [verdict, if_pos (hpermits hopen)]
    exact overridden_of_forced ((forced_of_extended h).2 hforced) _
  · cases hv

end Verdicts

/-- The result is one that an override puts in the place of what a search came to. An ordering that
equality blocks is blocked whatever overrides say. -/
def Overridden (ctx : Context) (relation : Relation) (entity : Identity) (v : RelationVerdict) :
    Prop :=
  v = .missedByConsumer ∨
    v = .unavailable ∧ ∃ d, ctx.unit.defining? entity = some d ∧ Forced ctx relation d

variable {ctx ctx' : Context} (h : ctx.ExtendedBy ctx')
  (hgains : ctx.unit.GainsFunctions ctx'.unit)
include h hgains

theorem opened_of_gains : opened ctx' = opened ctx := by
  obtain ⟨functions, hdecls, hfunctions⟩ := hgains.decls
  have hsame : ∀ d ∈ ctx.unit.decls, ∀ store, enter ctx' d store = enter ctx d store := by
    intro d _ store
    rw [enter_of_extended h]
  have hinert : ∀ d ∈ functions, ∀ store, enter ctx' d store = store := by
    intro d hd store
    obtain ⟨f, hf⟩ := Decl.exists_function (hfunctions d hd)
    simp [enter, Decl.tagType?, hf]
  rw [opened, hdecls, opened]
  exact foldl_append_of_inert hsame hinert .empty

variable {relation : Relation}
  (hpermits : ∀ entity, permits ctx relation entity = true → permits ctx' relation entity = true)
include hpermits

theorem grows_resolved (config : Config) :
    (relation.analysis config).Grows ctx (resolved ctx relation) (resolved ctx' relation) := by
  have hstore : (relation.analysis config).store ((relation.analysis config).gathered ctx) =
      opened ctx := by
    rw [gathered_analysis]
    rfl
  rw [resolved, resolved, opened_of_gains h hgains]
  apply Context.grows_of_settled h hstore fun _ => exists_defining_of_mem_opened
  intro entity d hd hv
  exact isAvailable_verdict_of_extended h (hpermits entity) hd.mem hv

theorem get?_resolved_of_overridden {entity : Identity} {v : RelationVerdict}
    (hv : (resolved ctx relation).get? entity = some v)
    (hoverridden : Overridden ctx relation entity v) :
    (resolved ctx' relation).get? entity = some v := by
  have hmem := OrderedMap.mem_keys_of_get? hv
  rw [resolved, OrderedMap.keys_mapValues] at hmem
  obtain ⟨old, hold⟩ := OrderedMap.exists_get?_of_mem hmem
  rw [resolved] at hv
  rw [resolved, opened_of_gains h hgains]
  rcases Context.settled_cases (verdict ctx relation) (verdict ctx' relation) h
    (fun _ => exists_defining_of_mem_opened) hold with
    ⟨_, hbefore, hafter⟩ | ⟨d, hd, hdefining, hbefore, hafter⟩
  · rw [hafter, ← hbefore, hv]
  · rw [hv, Option.some_inj] at hbefore
    rw [hafter, Option.some_inj]
    rcases hoverridden with rfl | ⟨rfl, e, he, hforced⟩
    · exact verdict_eq_missed_of_extended h (hpermits entity) hd hbefore.symm
    · rw [hdefining] at he
      cases he
      exact verdict_eq_unavailable_of_extended h (hpermits entity) hforced hbefore.symm

end Relation

namespace StringConversion

variable {ctx ctx' : Context} (h : ctx.ExtendedBy ctx')
  (hgains : ctx.unit.GainsFunctions ctx'.unit)
include h hgains

theorem opened_of_gains : opened ctx' = opened ctx := by
  obtain ⟨functions, hdecls, hfunctions⟩ := hgains.decls
  have hsame : ∀ d ∈ ctx.unit.decls, ∀ store, enter ctx' d store = enter ctx d store := by
    intro d hd store
    rw [enter_of_extended h hd]
  have hinert : ∀ d ∈ functions, ∀ store, enter ctx' d store = store := by
    intro d hd store
    obtain ⟨f, hf⟩ := Decl.exists_function (hfunctions d hd)
    simp [enter, hf]
  rw [opened, hdecls, opened]
  exact foldl_append_of_inert hsame hinert .empty

omit hgains in
theorem describable_of_extended {d : Decl} (hd : d ∈ ctx.unit.decls)
    (hdescribable : Describable ctx d) : Describable ctx' d := by
  obtain ⟨ty, hty, hdescribed⟩ := hdescribable
  rw [Describable, h.unit.conversionClosure_eq hd, h.unit.isArithmetic_eq]
  refine ⟨ty, hty, ?_⟩
  rcases hdescribed with harithmetic | hstreamable
  · exact Or.inl harithmetic
  · have hcandidate := candidates_subset h (mem_candidates_iff.2 hstreamable)
    exact Or.inr (mem_candidates_iff.1 hcandidate)

omit hgains in
theorem isAvailable_judge_of_extended {d : Decl} (hd : d ∈ ctx.unit.decls)
    (hv : (judge ctx.unit (candidates ctx) d).isAvailable = true) :
    (judge ctx'.unit (candidates ctx') d).isAvailable = true := by
  rcases judge_cases ctx d with ⟨hdescribable, _⟩ | ⟨_, hnone⟩
  · rcases judge_cases ctx' d with ⟨_, hstreamed⟩ | ⟨hnot, _⟩
    · rw [hstreamed]
      rfl
    · exact absurd (describable_of_extended h hd hdescribable) hnot
  · rw [hnone] at hv
    cases hv

theorem grows_resolved (config : Config) (hconfig : ctx.config = config) :
    (analysis config).Grows ctx (resolved ctx) (resolved ctx') := by
  have hstore : (analysis config).store ((analysis config).gathered ctx) = opened ctx := by
    rw [← hconfig, gathered_analysis]
    rfl
  rw [resolved, resolved, opened_of_gains h hgains]
  apply Context.grows_of_settled h hstore fun _ => exists_defining_of_mem_opened
  intro entity d hd hv
  exact isAvailable_judge_of_extended h hd.mem hv

end StringConversion

namespace Analysis

variable (a : Analysis) {v : SourceUnit} (h : a.unit.GainsFunctions v)
include h

theorem relationContext_extendedBy (relation : Relation) :
    (a.relationContext relation).ExtendedBy
      (({ a with unit := v } : Analysis).relationContext relation) := by
  cases relation
  · exact a.context_extendedBy h.extendedBy .equality none none
  · exact a.context_extendedBy h.extendedBy .ordering _ _

theorem grows_equality : (Relation.equality.analysis a.config).Grows (a.context .equality none)
    (a.relationStore .equality) (({ a with unit := v } : Analysis).relationStore .equality) :=
  Relation.grows_resolved (a.relationContext_extendedBy h .equality) h (fun _ hp => hp) a.config

/-- The gate of ordering stays open where it is. -/
theorem permits_of_gains (relation : Relation) (entity : Identity)
    (hp : Relation.permits (a.relationContext relation) relation entity = true) :
    Relation.permits (({ a with unit := v } : Analysis).relationContext relation) relation entity =
      true := by
  cases relation with
  | equality => rfl
  | ordering =>
    rw [permits_ordering, Option.any_eq_true] at hp ⊢
    obtain ⟨w, hw, havailable⟩ := hp
    exact (a.grows_equality h).available entity w hw havailable

theorem relationContext_gains (relation : Relation) :
    (a.relationContext relation).unit.GainsFunctions
      (({ a with unit := v } : Analysis).relationContext relation).unit := by
  rw [relationContext_unit, relationContext_unit]
  exact h

theorem grows_ordering : (Relation.ordering.analysis a.config).Grows
    (a.context .ordering (some (a.relationStore .equality))) (a.relationStore .ordering)
    (({ a with unit := v } : Analysis).relationStore .ordering) :=
  Relation.grows_resolved (a.relationContext_extendedBy h .ordering)
    (a.relationContext_gains h .ordering) (a.permits_of_gains h .ordering) a.config

theorem grows_stringConversion : (StringConversion.analysis a.config).Grows a.stringContext
    a.stringStore ({ a with unit := v } : Analysis).stringStore :=
  StringConversion.grows_resolved (a.context_extendedBy h.extendedBy .stringConversion _ _) h
    a.config rfl

theorem get?_relationStore_of_overridden (relation : Relation) {entity : Identity}
    {w : RelationVerdict} (hw : (a.relationStore relation).get? entity = some w)
    (hoverridden : Relation.Overridden (a.relationContext relation) relation entity w) :
    (({ a with unit := v } : Analysis).relationStore relation).get? entity = some w :=
  Relation.get?_resolved_of_overridden (a.relationContext_extendedBy h relation)
    (a.relationContext_gains h relation) (a.permits_of_gains h relation) hw hoverridden

/-- For every analysis, and every unit that has functions behind the declarations of the analyzed
one: the analysis of that unit succeeds too, and each of its stores has the same keys in the same
order, keeps what was available available, and keeps what import classes, enums and string overrides
decided. What an override of a relation decided it keeps as well. -/
theorem results_of_further_functions :
    ∃ r s, a.run = .ok r ∧ ({ a with unit := v } : Analysis).run = .ok s ∧
      (Relation.equality.analysis a.config).Grows (a.context .equality none) r.equality
        s.equality ∧
      (Relation.ordering.analysis a.config).Grows (a.context .ordering (some r.equality)) r.ordering
        s.ordering ∧
      (StringConversion.analysis a.config).Grows (a.context .stringConversion (some r.equality))
        r.stringConversion s.stringConversion ∧
      ∀ entity w,
        (r.equality.get? entity = some w →
          Relation.Overridden (a.context .equality none) .equality entity w →
            s.equality.get? entity = some w) ∧
        (r.ordering.get? entity = some w →
          Relation.Overridden (a.context .ordering (some r.equality)) .ordering entity w →
            s.ordering.get? entity = some w) := by
  refine ⟨a.results, _, a.run_eq_results, run_eq_results _, a.grows_equality h, a.grows_ordering h,
    a.grows_stringConversion h, fun entity w => ⟨?_, ?_⟩⟩
  · exact a.get?_relationStore_of_overridden h .equality
  · exact a.get?_relationStore_of_overridden h .ordering

omit h

/-- An enum with an equality. -/
def flags : Analysis where
  unit :=
    { decls :=
        [⟨⟨0⟩, "Flag", none, true, .enumeration ⟨"Flag", true⟩⟩,
          ⟨⟨1⟩, "operator==", none, true, .function
            ⟨some .equal, [.constRef "Flag", .constRef "Flag"], .value "bool", none, .unspecified,
              false, false, false⟩⟩]
      types := OrderedMap.ofList [("bool", .builtin .bool), ("Flag", .enumeration ⟨0⟩ true)]
      wellFormed := WellFormed.fault?_eq_none_iff.1 (by decide) }
  inputs := ⟨.ofList [(⟨⟨0⟩⟩, .value)], .empty⟩
  config := .default

/-- The same enum with an ordering behind. -/
def orderedFlags : SourceUnit where
  decls := flags.unit.decls ++
    [⟨⟨2⟩, "operator<", none, true, .function
      ⟨some .less, [.constRef "Flag", .constRef "Flag"], .value "bool", none, .unspecified, false,
        false, false⟩⟩]
  types := flags.unit.types
  wellFormed := WellFormed.fault?_eq_none_iff.1 (by decide)

/-- The enum stays equatable. -/
theorem equality_of_orderedFlags :
    flags.unit.GainsFunctions orderedFlags ∧
      ∃ s, ({ flags with unit := orderedFlags } : Analysis).run = .ok s ∧
        s.equality.keys = [⟨⟨0⟩⟩] ∧
        ∃ w, s.equality.get? ⟨⟨0⟩⟩ = some w ∧ w.isAvailable = true := by
  have hgains : flags.unit.GainsFunctions orderedFlags := ⟨rfl, _, rfl, by decide⟩
  obtain ⟨r, s, hr, hs, hequality, _⟩ := results_of_further_functions flags hgains
  rw [run_eq_results] at hr
  cases hr
  have hkeys : flags.results.equality.keys = [⟨⟨0⟩⟩] := by decide
  have hfound : flags.results.equality.get? ⟨⟨0⟩⟩ = some .foundByConsumer := by decide
  exact ⟨hgains, s, hs, hequality.keys.trans hkeys, hequality.available _ _ hfound rfl⟩

end Analysis

end InteropWitness

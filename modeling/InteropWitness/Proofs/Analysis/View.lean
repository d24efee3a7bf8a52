import InteropWitness.Proofs.Analysis.Run
import InteropWitness.Proofs.SourceUnit.Visibility

namespace InteropWitness

namespace Context

def viewed (ctx : Context) (v : View) {types : TypeTable}
    (h : ∀ ty, ctx.unit.types.get? ty = types.get? ty) : Context :=
  { ctx with unit := ctx.unit.viewed v h }

section Viewed

variable {ctx : Context} {v : View} {types : TypeTable}
  (h : ∀ ty, ctx.unit.types.get? ty = types.get? ty)

@[simp] theorem unit_viewed : (ctx.viewed v h).unit = ctx.unit.viewed v h := rfl

@[simp] theorem config_viewed : (ctx.viewed v h).config = ctx.config := rfl

@[simp] theorem import?_viewed (entity : Identity) :
    (ctx.viewed v h).import? entity = ctx.import? entity := rfl

@[simp] theorem isUsable_viewed (ty : TypeKey) :
    (ctx.viewed v h).isUsable ty = ctx.isUsable ty := by
  rw [isUsable, unit_viewed, SourceUnit.tagDecl?_viewed, isUsable]
  cases ctx.unit.tagDecl? ty <;> simp

@[simp] theorem usableOperand?_viewed (operand : QualType) :
    (ctx.viewed v h).usableOperand? operand = ctx.usableOperand? operand := by
  have husable : (ctx.viewed v h).isUsable = ctx.isUsable := funext (isUsable_viewed h)
  rw [usableOperand?, husable, unit_viewed, SourceUnit.operandType?, SourceUnit.isBuiltin_viewed,
    usableOperand?, SourceUnit.operandType?]

theorem settled_viewed {ρ : Type} [Verdict ρ] {verdict verdict' : Identity → Decl → ρ}
    (hverdict : ∀ entity d, verdict' entity (v.decl d) = verdict entity d) :
    (ctx.viewed v h).settled verdict' = ctx.settled verdict := by
  funext entity v
  rw [settled, unit_viewed, SourceUnit.defining?_viewed, Option.map_map, settled]
  congr 3
  exact funext (hverdict entity)

end Viewed

end Context

namespace Relation

/-- The witnesses that a declaration is. -/
def contributed (ctx : Context) (relation : Relation) (d : Decl) :
    List (TypeKey × TypeKey × WitnessProperties) :=
  d.function?.toList.flatMap (contributions ctx relation)

theorem witnesses_eq_flatMap (ctx : Context) (relation : Relation) :
    witnesses ctx relation = ctx.unit.decls.flatMap (contributed ctx relation) := by
  rw [witnesses, List.filterMap_eq_flatMap_toList, List.flatMap_assoc]
  rfl

variable {ctx : Context} {v : View} {types : TypeTable}
  (h : ∀ ty, ctx.unit.types.get? ty = types.get? ty) (relation : Relation)

theorem witnessed?_viewed (f : FunctionDecl) :
    witnessed? (ctx.viewed v h) relation f = witnessed? ctx relation f := by
  have hcomparison :
      isComparison (ctx.viewed v h).unit relation f = isComparison ctx.unit relation f := by
    rw [isComparison, Context.unit_viewed, SourceUnit.isBool_viewed, isComparison]
  have hoperand : (ctx.viewed v h).usableOperand? = ctx.usableOperand? :=
    funext (Context.usableOperand?_viewed h)
  rw [witnessed?, hcomparison, hoperand, witnessed?]

theorem contributions_viewed :
    contributions (ctx.viewed v h) relation = contributions ctx relation := by
  funext f
  simp only [contributions, witnessed?_viewed, servedPairs, served, Context.unit_viewed,
    SourceUnit.injectedSelfType?_viewed]

theorem witnesses_viewed_eq_flatMap :
    witnesses (ctx.viewed v h) relation =
      ctx.unit.decls.flatMap fun d => contributed ctx relation (v.decl d) := by
  have hcontributed : contributed (ctx.viewed v h) relation = contributed ctx relation := by
    funext d
    rw [contributed, contributions_viewed, contributed]
  rw [witnesses_eq_flatMap, hcontributed, Context.unit_viewed, SourceUnit.decls_viewed,
    List.flatMap_map]

theorem witnesses_viewed
    (hsame : ∀ d ∈ ctx.unit.decls,
      contributed ctx relation (v.decl d) = contributed ctx relation d) :
    witnesses (ctx.viewed v h) relation = witnesses ctx relation := by
  rw [witnesses_viewed_eq_flatMap, witnesses_eq_flatMap]
  exact List.flatMap_congr hsame

/-- The view finds what the unit finds if every declaration contributes the same witnesses up to
their order and the order of their types. -/
theorem knows_witnesses_viewed
    (hsame : ∀ d ∈ ctx.unit.decls, ∀ a b p,
      WitnessSet.Recorded (contributed ctx relation (v.decl d)) a b p ↔
        WitnessSet.Recorded (contributed ctx relation d) a b p) :
    Knows ctx relation (.ofList (witnesses (ctx.viewed v h) relation)) := by
  intro a b
  refine WitnessSet.find?_ofList_of_recorded fun p => ?_
  rw [witnesses_viewed_eq_flatMap, witnesses_eq_flatMap, WitnessSet.recorded_flatMap_iff,
    WitnessSet.recorded_flatMap_iff]
  exact exists_congr fun d => and_congr_right fun hd => hsame d hd a b p

theorem enter_viewed (d : Decl) (store : Store RelationVerdict) :
    enter (ctx.viewed v h) (v.decl d) store = enter ctx d store := by
  have htag : visitTag (ctx.viewed v h) (v.decl d) store = visitTag ctx d store := rfl
  rw [enter, View.tagType?_decl, htag, enter]

theorem opened_viewed : opened (ctx.viewed v h) = opened ctx := by
  simp only [opened, Context.unit_viewed, SourceUnit.decls_viewed, List.foldl_map, enter_viewed]

theorem searchWitness_viewed (w : WitnessSet) (d : Decl) :
    (ctx.unit.viewed v h).searchWitness w (v.decl d) = ctx.unit.searchWitness w d := by
  have hpair : (ctx.unit.viewed v h).pairProposals w = ctx.unit.pairProposals w := by
    funext this isSpecialization pair
    simp only [SourceUnit.pairProposals, SourceUnit.isBool_viewed, SourceUnit.isArithmetic_viewed]
  simp only [SourceUnit.searchWitness, SourceUnit.proposals, View.tagType?_decl,
    SourceUnit.conversionClosure_viewed, View.specialization?_decl, hpair]

theorem overridden_viewed (d : Decl) (result : RelationVerdict) :
    overridden (ctx.viewed v h) relation (v.decl d) result = overridden ctx relation d result := rfl

variable (hfind : Knows ctx relation (.ofList (witnesses (ctx.viewed v h) relation)))
include hfind

theorem verdict_viewed (entity : Identity) (d : Decl) :
    verdict (ctx.viewed v h) relation entity (v.decl d) = verdict ctx relation entity d := by
  have hpermits : permits (ctx.viewed v h) relation entity = permits ctx relation entity := rfl
  rw [verdict, hpermits, overridden_viewed, Context.unit_viewed, searchWitness_viewed,
    SourceUnit.searchWitness_congr hfind, verdict]

theorem resolved_viewed : resolved (ctx.viewed v h) relation = resolved ctx relation := by
  rw [resolved, opened_viewed, Context.settled_viewed h (verdict_viewed h relation hfind), resolved]

end Relation

namespace StringConversion

variable {ctx : Context} {v : View} {types : TypeTable}
  (h : ∀ ty, ctx.unit.types.get? ty = types.get? ty)

theorem accepted?_viewed : accepted? (ctx.viewed v h) = accepted? ctx := by
  funext f
  simp only [accepted?, Context.config_viewed, Context.usableOperand?_viewed]

theorem mem_candidates_iff_accepted {ctx : Context} {ty : TypeKey} :
    ty ∈ candidates ctx ↔ ∃ d ∈ ctx.unit.decls, d.function?.bind (accepted? ctx) = some ty := by
  rw [candidates, mem_foldl_visitFunction]
  simp only [List.not_mem_nil, false_or, List.mem_filterMap, Option.bind_eq_some_iff]
  constructor
  · intro h
    obtain ⟨f, ⟨d, hd, hf⟩, h⟩ := h
    exact ⟨d, hd, f, hf, h⟩
  · intro h
    obtain ⟨d, hd, f, hf, h⟩ := h
    exact ⟨f, ⟨d, hd, hf⟩, h⟩

theorem mem_candidates_viewed
    (hsame : ∀ d ∈ ctx.unit.decls,
      (v.decl d).function?.bind (accepted? ctx) = d.function?.bind (accepted? ctx))
    (ty : TypeKey) : ty ∈ candidates (ctx.viewed v h) ↔ ty ∈ candidates ctx := by
  rw [mem_candidates_iff_accepted, mem_candidates_iff_accepted, accepted?_viewed,
    Context.unit_viewed, SourceUnit.decls_viewed]
  simp only [List.mem_map, exists_exists_and_eq_and]
  exact exists_congr fun d => and_congr_right fun hd => by rw [hsame d hd]

theorem enter_viewed (d : Decl) (store : Store StringVerdict) :
    enter (ctx.viewed v h) (v.decl d) store = enter ctx d store := by
  have hexact : StringOverride.exactVerdict? ctx.config.stringTable (v.decl d) =
      StringOverride.exactVerdict? ctx.config.stringTable d := rfl
  have hrecord : visitRecord (ctx.viewed v h) ctx.config.stringTable (v.decl d) store =
      visitRecord ctx ctx.config.stringTable d store := by
    simp only [visitRecord, View.inLibrary_decl, View.identity_decl, Context.import?_viewed,
      Context.unit_viewed, StringOverride.matching_viewed, hexact]
  have henum : visitEnum (ctx.viewed v h) (v.decl d) store = visitEnum ctx d store := rfl
  rw [enter, Context.config_viewed, hrecord, henum, enter, View.decl]
  cases d.kind with
  | function f => cases hf : v.function d.id f <;> simp [View.kind, hf]
  | record | enumeration | other => rfl

theorem opened_viewed : opened (ctx.viewed v h) = opened ctx := by
  simp only [opened, Context.unit_viewed, SourceUnit.decls_viewed, List.foldl_map, enter_viewed]

variable (hmem : ∀ ty, ty ∈ candidates (ctx.viewed v h) ↔ ty ∈ candidates ctx)
include hmem

theorem judge_viewed (d : Decl) :
    judge (ctx.unit.viewed v h) (candidates (ctx.viewed v h)) (v.decl d) =
      judge ctx.unit (candidates ctx) d := by
  rw [judge_congr hmem]
  simp only [judge, SourceUnit.conversionClosure_viewed, SourceUnit.isArithmetic_viewed]

theorem resolved_viewed : resolved (ctx.viewed v h) = resolved ctx := by
  rw [resolved, opened_viewed, resolved]
  congr 1
  exact Context.settled_viewed h fun _ d => judge_viewed h hmem d

end StringConversion

/-- The function is evidence for nothing. -/
structure FunctionDecl.Idle (ctx : Context) (f : FunctionDecl) : Prop where
  witnesses : ∀ relation, Relation.contributions ctx relation f = []
  accepted : StringConversion.accepted? ctx f = none

namespace Analysis

def viewed (a : Analysis) (v : View) {types : TypeTable}
    (h : ∀ ty, a.unit.types.get? ty = types.get? ty) : Analysis :=
  { a with unit := a.unit.viewed v h }

section Viewed

variable (a : Analysis) {v : View} {types : TypeTable}
  (h : ∀ ty, a.unit.types.get? ty = types.get? ty)
  (hfind : ∀ relation, Relation.Knows (a.context .equality none) relation
    (.ofList (Relation.witnesses ((a.context .equality none).viewed v h) relation)))
include hfind

theorem relationStore_viewed (relation : Relation) :
    (a.viewed v h).relationStore relation = a.relationStore relation := by
  have hequality : (a.viewed v h).relationStore .equality = a.relationStore .equality :=
    @Relation.resolved_viewed (a.context .equality none) _ _ h .equality (hfind .equality)
  cases relation with
  | equality => exact hequality
  | ordering =>
    calc (a.viewed v h).relationStore .ordering
        = Relation.resolved
            ((a.viewed v h).context .ordering (some ((a.viewed v h).relationStore .equality)))
            .ordering := rfl
      _ = Relation.resolved
            ((a.viewed v h).context .ordering (some (a.relationStore .equality))) .ordering := by
          rw [hequality]
      _ = a.relationStore .ordering :=
          @Relation.resolved_viewed (a.relationContext .ordering) _ _ h .ordering (hfind .ordering)

variable (hmem : ∀ ty, ty ∈ StringConversion.candidates (a.stringContext.viewed v h) ↔
  ty ∈ StringConversion.candidates a.stringContext)
include hmem

theorem stringStore_viewed : (a.viewed v h).stringStore = a.stringStore := by
  calc (a.viewed v h).stringStore
      = StringConversion.resolved ((a.viewed v h).context .stringConversion
          (some ((a.viewed v h).relationStore .equality))) := rfl
    _ = StringConversion.resolved
          ((a.viewed v h).context .stringConversion (some (a.relationStore .equality))) := by
        rw [a.relationStore_viewed h hfind]
    _ = a.stringStore := @StringConversion.resolved_viewed a.stringContext _ _ h hmem

/-- Where the functions of a view are evidence for the same, the run ends with the same stores. -/
theorem run_viewed : (a.viewed v h).run = a.run := by
  rw [run_eq_results, results, a.relationStore_viewed h hfind, a.relationStore_viewed h hfind,
    a.stringStore_viewed h hfind hmem, run_eq_results]
  rfl

omit hfind hmem

/-- Where a view keeps all functions but those that are evidence for nothing, and what stands for
these is evidence for nothing too, the run ends with the same stores. -/
theorem run_viewed_of_idle
    (hidle : ∀ d ∈ a.unit.decls, ∀ f, d.function? = some f → v.function d.id f = some f ∨
      (f.Idle (a.context .equality none) ∧
        ∀ g, v.function d.id f = some g → g.Idle (a.context .equality none))) :
    (a.viewed v h).run = a.run := by
  refine a.run_viewed h (fun relation x y => ?_) ?_
  · refine congrArg (fun w => (WitnessSet.ofList w).find? x y) ?_
    refine @Relation.witnesses_viewed (a.context .equality none) v _ h relation fun d hd => ?_
    rw [Relation.contributed, View.function?_decl, Relation.contributed]
    cases hf : d.function? with
    | none => rfl
    | some f =>
      rcases hidle d hd f hf with hkept | ⟨hbefore, hafter⟩
      · simp [hkept]
      · cases hg : v.function d.id f with
        | none => simp [hg, hbefore.witnesses]
        | some g => simp [hg, hbefore.witnesses, (hafter g hg).witnesses]
  · refine @StringConversion.mem_candidates_viewed a.stringContext v _ h fun d hd => ?_
    rw [View.function?_decl]
    cases hf : d.function? with
    | none => rfl
    | some f =>
      rcases hidle d hd f hf with hkept | ⟨hbefore, hafter⟩
      · simp [hkept]
      · have hnone : StringConversion.accepted? a.stringContext f = none := hbefore.accepted
        cases hg : v.function d.id f with
        | none => simp [hg, hnone]
        | some g =>
          have hnone' : StringConversion.accepted? a.stringContext g = none :=
            (hafter g hg).accepted
          simp [hg, hnone, hnone']

end Viewed

end Analysis

theorem FunctionDecl.isVisible_of_hidden {f : FunctionDecl} (h : f.Hidden) : f.isVisible = false :=
  Bool.eq_false_iff.2 fun hv => isVisible_iff.1 hv h

theorem FunctionDecl.idle_of_hidden {f : FunctionDecl} (hf : f.Hidden) (ctx : Context) :
    f.Idle ctx where
  witnesses relation := by
    have hcomparison : Relation.isComparison ctx.unit relation f = false := by
      rw [Relation.isComparison, f.isVisible_of_hidden hf, Bool.and_false]
    rw [Relation.contributions, Relation.witnessed?, hcomparison]
    rfl
  accepted := by
    rw [StringConversion.accepted?, f.isVisible_of_hidden hf, Bool.and_false]
    rfl

namespace Analysis

def seen (a : Analysis) {types : TypeTable}
    (h : ∀ ty, a.unit.types.get? ty = types.get? ty) : Analysis :=
  { a with unit := a.unit.seen h }

theorem run_seen (a : Analysis) {types : TypeTable}
    (h : ∀ ty, a.unit.types.get? ty = types.get? ty) : (a.seen h).run = a.run := by
  have hviewed : a.seen h = a.viewed View.seen h := by
    rw [seen, SourceUnit.seen_eq_viewed, viewed]
  rw [hviewed]
  refine a.run_viewed_of_idle h fun d _ f _ => ?_
  by_cases hf : f.Hidden
  · exact .inr ⟨f.idle_of_hidden hf _, fun g hg => by simp [View.seen, hf] at hg⟩
  · exact .inl (if_neg hf)

/-- Analyses of units that differ only in what is hidden from the consumer end with the same stores,
entry by entry. -/
theorem results_of_seenAlike {u v : SourceUnit} (h : u.SeenAlike v) (inputs : Inputs)
    (config : Config) :
    ∃ r, (⟨u, inputs, config⟩ : Analysis).run = .ok r ∧
      (⟨v, inputs, config⟩ : Analysis).run = .ok r := by
  let a : Analysis := ⟨u, inputs, config⟩
  let b : Analysis := ⟨v, inputs, config⟩
  have hseen : a.seen h.types = b.seen fun _ => rfl := by
    rw [seen, h.seen_eq, seen]
  have hrun : b.run = a.run := by
    rw [← b.run_seen fun _ => rfl, ← hseen, run_seen]
  exact ⟨a.results, a.run_eq_results, hrun.trans a.run_eq_results⟩

/-- A record that can be compared, a box with the given parts, and a function. -/
def boxWith (bases : List BaseSpecifier) (conversions : List ConversionOperator)
    (f : FunctionDecl) : List Decl :=
  [⟨⟨0⟩, "Base", none, true, .record ⟨"Base", [], [], none⟩⟩,
    ⟨⟨1⟩, "operator==", none, true, .function
      ⟨some .equal, [.constRef "Base", .constRef "Base"], .value "bool", none, .unspecified, false,
        false, false⟩⟩,
    ⟨⟨2⟩, "Box", none, true, .record ⟨"Box", bases, conversions, none⟩⟩,
    ⟨⟨3⟩, "operator", none, true, .function f⟩]

def boxTypes : TypeTable :=
  OrderedMap.ofList [("bool", .builtin .bool), ("Base", .record ⟨0⟩), ("Box", .record ⟨2⟩)]

/-- The box has a private base, an explicit conversion and a deleted operator. -/
def closedBox : SourceUnit where
  decls := boxWith [⟨"Base", .privateAccess⟩] [⟨.value "Base", .publicAccess, true, true, false, 0⟩]
    ⟨some .equal, [.constRef "Box", .constRef "Box"], .value "bool", none, .unspecified, true,
      false, false⟩
  types := boxTypes
  wellFormed := WellFormed.fault?_eq_none_iff.1 (by decide)

def emptyBox : SourceUnit where
  decls := boxWith [] []
    ⟨none, [], .value "bool", some ⟨"Base", true⟩, .privateAccess, false, false, false⟩
  types := boxTypes
  wellFormed := WellFormed.fault?_eq_none_iff.1 (by decide)

theorem results_of_closedBox :
    closedBox.decls ≠ emptyBox.decls ∧ closedBox.SeenAlike emptyBox ∧
      ∃ r, (⟨closedBox, ⟨.ofList [(⟨⟨2⟩⟩, .value)], .empty⟩, .default⟩ : Analysis).run = .ok r ∧
        (⟨emptyBox, ⟨.ofList [(⟨⟨2⟩⟩, .value)], .empty⟩, .default⟩ : Analysis).run = .ok r := by
  have hbox : Decl.SeenAlike closedBox.decls[2] emptyBox.decls[2] :=
    ⟨rfl, rfl, rfl, rfl, .record rfl rfl (by decide) (by decide)⟩
  have hoperator : Decl.SeenAlike closedBox.decls[3] emptyBox.decls[3] :=
    ⟨rfl, rfl, rfl, rfl, .hidden (by decide) (by decide)⟩
  have halike : closedBox.SeenAlike emptyBox :=
    ⟨fun _ => rfl, .cons ⟨rfl, rfl, rfl, rfl, .record rfl rfl rfl rfl⟩ <|
      .cons ⟨rfl, rfl, rfl, rfl, .function _⟩ <| .cons hbox <| .cons hoperator .nil⟩
  exact ⟨by decide, halike, results_of_seenAlike halike _ _⟩

end Analysis

end InteropWitness

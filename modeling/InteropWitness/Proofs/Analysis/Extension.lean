import InteropWitness.Analysis
import InteropWitness.Proofs.Relation.Run
import InteropWitness.Proofs.SourceUnit.Extension
import InteropWitness.Proofs.StringConversion.Run

namespace InteropWitness

/-- The contexts differ only in how far the unit goes and in what has been frozen. -/
structure Context.ExtendedBy (ctx ctx' : Context) : Prop where
  unit : ctx.unit.ExtendedBy ctx'.unit
  config : ctx'.config = ctx.config
  inputs : ctx'.inputs = ctx.inputs

namespace Context.ExtendedBy

variable {ctx ctx' : Context} (h : ctx.ExtendedBy ctx')
include h

theorem import?_eq : ctx'.import? = ctx.import? := by
  funext entity
  rw [import?, h.inputs, import?]

theorem isUsable_eq : ctx'.isUsable = ctx.isUsable := by
  funext ty
  rw [isUsable, h.unit.tagDecl?_eq, h.unit.involvesLibrary_eq, h.import?_eq, isUsable]

theorem usableOperand?_eq : ctx'.usableOperand? = ctx.usableOperand? := by
  funext operand
  rw [usableOperand?, SourceUnit.operandType?, h.isUsable_eq, h.unit.isBuiltin_eq, usableOperand?,
    SourceUnit.operandType?]

theorem functions_subset : ctx.unit.decls.filterMap (·.function?) ⊆
    ctx'.unit.decls.filterMap (·.function?) := (h.unit.decls.filterMap _).subset

/-- An entry is settled alike where the verdicts on declarations of the shorter unit are. -/
theorem settled_eq {ρ : Type} [Verdict ρ] {verdict verdict' : Identity → Decl → ρ}
    (hverdict : ∀ entity, ∀ d ∈ ctx.unit.decls, verdict' entity d = verdict entity d)
    {d : Decl} (hd : d ∈ ctx.unit.decls) (v : ρ) :
    ctx'.settled verdict' d.identity v = ctx.settled verdict d.identity v := by
  obtain ⟨e, he, hdefining, _⟩ := SourceUnit.exists_defining hd
  rw [settled, settled, h.unit.defining?_eq hd, hdefining, Option.map_some, Option.map_some,
    hverdict d.identity e he]

end Context.ExtendedBy

namespace Relation

variable {ctx ctx' : Context} (h : ctx.ExtendedBy ctx') (relation : Relation)
include h

theorem contributions_of_extended : contributions ctx' relation = contributions ctx relation := by
  funext f
  have hwitnessed : witnessed? ctx' relation f = witnessed? ctx relation f := by
    rw [witnessed?, isComparison, h.unit.isBool_eq, h.usableOperand?_eq, witnessed?, isComparison]
  have hserved : servedPairs ctx'.unit = servedPairs ctx.unit := by
    funext left right
    simp only [servedPairs, served, h.unit.injectedSelfType?_eq]
  rw [contributions, hwitnessed, hserved, contributions]

theorem witnesses_subset : witnesses ctx relation ⊆ witnesses ctx' relation := by
  intro e he
  rw [witnesses, List.mem_flatMap] at he ⊢
  obtain ⟨f, hf, hmem⟩ := he
  rw [contributions_of_extended h relation]
  exact ⟨f, h.functions_subset hf, hmem⟩

theorem enter_of_extended : enter ctx' = enter ctx := by
  funext d store
  rw [enter, visitTag, h.import?_eq, enter, visitTag]

theorem searchWitness_of_extended {d : Decl} (hd : d ∈ ctx.unit.decls) (w : WitnessSet) :
    ctx'.unit.searchWitness w d = ctx.unit.searchWitness w d := by
  have hpair : ctx'.unit.pairProposals w = ctx.unit.pairProposals w := by
    funext this isSpecialization pair
    rw [SourceUnit.pairProposals, h.unit.isBool_eq, h.unit.isArithmetic_eq,
      SourceUnit.pairProposals]
  rw [SourceUnit.searchWitness, SourceUnit.proposals, h.unit.conversionClosure_eq hd, hpair,
    SourceUnit.searchWitness, SourceUnit.proposals]

theorem overridden_of_extended : overridden ctx' relation = overridden ctx relation := by
  funext d v
  simp only [overridden, Forced, h.config]

end Relation

namespace StringConversion

variable {ctx ctx' : Context} (h : ctx.ExtendedBy ctx')
include h

theorem visitFunction_of_extended : visitFunction ctx' = visitFunction ctx := by
  funext f tys
  rw [visitFunction, accepted?, h.config, h.usableOperand?_eq, visitFunction, accepted?]

theorem candidates_subset : candidates ctx ⊆ candidates ctx' := by
  intro ty hty
  rw [candidates, visitFunction_of_extended h]
  rw [candidates] at hty
  rw [mem_foldl_visitFunction] at hty ⊢
  rcases hty with hnone | ⟨f, hf, haccepted⟩
  · exact Or.inl hnone
  · exact Or.inr ⟨f, h.functions_subset hf, haccepted⟩

theorem enter_of_extended {d : Decl} (hd : d ∈ ctx.unit.decls) : enter ctx' d = enter ctx d := by
  funext store
  rw [enter, visitRecord, visitEnum, h.config, h.import?_eq, h.inputs, h.unit.matching_eq hd, enter,
    visitRecord, visitEnum]

theorem revised_of_extended {d : Decl} (hd : d ∈ ctx.unit.decls) :
    revised ctx' d = revised ctx d := by
  funext old
  rw [revised, revisedByRecord, h.config, h.import?_eq, h.inputs, h.unit.matching_eq hd, revised,
    revisedByRecord]

theorem judge_of_extended {d : Decl} (hd : d ∈ ctx.unit.decls) (tys : List TypeKey) :
    judge ctx'.unit tys d = judge ctx.unit tys d := by
  rw [judge, h.unit.conversionClosure_eq hd, h.unit.isArithmetic_eq, judge]

end StringConversion

theorem Analysis.context_extendedBy (a : Analysis) {v : SourceUnit} (h : a.unit.ExtendedBy v)
    (pass : PassId) (frozen frozen' : Option (Store RelationVerdict)) :
    (a.context pass frozen).ExtendedBy (({ a with unit := v } : Analysis).context pass frozen') :=
  ⟨h, rfl, rfl⟩

end InteropWitness

import InteropWitness.Proofs.Analysis.View

namespace InteropWitness

namespace FunctionDecl

/-- The function is declared as an equality or an ordering of two parameters. -/
def ComparesParameters (f : FunctionDecl) : Prop :=
  (f.operator = some .equal ∨ f.operator = some .less) ∧ f.params.length = 2

instance (f : FunctionDecl) : Decidable f.ComparesParameters :=
  inferInstanceAs (Decidable (_ ∧ _))

/-- A comparison of two parameters is declared with them the other way round, and any other function
as it is. -/
def swapped (f : FunctionDecl) : FunctionDecl :=
  if f.ComparesParameters then { f with params := f.params.reverse } else f

variable {f : FunctionDecl}

theorem swapped_of_comparesParameters (h : f.ComparesParameters) :
    f.swapped = { f with params := f.params.reverse } := if_pos h

theorem swapped_of_not_comparesParameters (h : ¬f.ComparesParameters) : f.swapped = f := if_neg h

theorem comparesParameters_swapped_iff : f.swapped.ComparesParameters ↔ f.ComparesParameters := by
  by_cases h : f.ComparesParameters
  · rw [swapped_of_comparesParameters h]
    simp only [ComparesParameters, List.length_reverse]
  · rw [swapped_of_not_comparesParameters h]

@[simp] theorem swapped_swapped (f : FunctionDecl) : f.swapped.swapped = f := by
  by_cases h : f.ComparesParameters
  · rw [swapped_of_comparesParameters (comparesParameters_swapped_iff.2 h),
      swapped_of_comparesParameters h]
    simp only [List.reverse_reverse]
  · rw [swapped_of_not_comparesParameters h, swapped_of_not_comparesParameters h]

theorem signature_swapped (f : FunctionDecl) : f.swapped.params ⊆ f.params ∧
    f.swapped.returnType = f.returnType ∧ f.swapped.method = f.method := by
  by_cases h : f.ComparesParameters
  · rw [swapped_of_comparesParameters h]
    exact ⟨fun q hq => List.mem_reverse.1 hq, rfl, rfl⟩
  · rw [swapped_of_not_comparesParameters h]
    exact ⟨List.Subset.refl _, rfl, rfl⟩

theorem properties_swapped (f : FunctionDecl) :
    Relation.properties f.swapped = Relation.properties f := by
  by_cases h : f.ComparesParameters
  · rw [swapped_of_comparesParameters h]
    rfl
  · rw [swapped_of_not_comparesParameters h]

theorem accepted?_swapped (ctx : Context) (f : FunctionDecl) :
    StringConversion.accepted? ctx f.swapped = StringConversion.accepted? ctx f := by
  by_cases h : f.ComparesParameters
  · have hop : f.operator ≠ some .insertion := by
      intro hop
      simp [ComparesParameters, hop] at h
    rw [swapped_of_comparesParameters h]
    simp [StringConversion.accepted?, hop]
  · rw [swapped_of_not_comparesParameters h]

end FunctionDecl

namespace Relation

variable {ctx : Context} {relation : Relation} {f : FunctionDecl} {left right : TypeKey}

/-- A function with two parameters takes them as operands, whether it is a method or not. -/
theorem TakesOperands.reverse {l r : QualType} (h : TakesOperands f l r)
    (htwo : f.params.length = 2) : TakesOperands { f with params := f.params.reverse } r l := by
  rcases h with hparams | ⟨_, _, hparams, _⟩
  · exact .inl (by simp [hparams])
  · simp [hparams] at htwo

theorem Compares.reverse (h : Compares ctx relation f left right) (htwo : f.params.length = 2) :
    Compares ctx relation { f with params := f.params.reverse } right left where
  operator := h.operator
  returnsBool := h.returnsBool
  present := h.present
  accessible := h.accessible
  operands := by
    obtain ⟨l, r, htakes, hl, hr⟩ := h.operands
    exact ⟨r, l, htakes.reverse htwo, hr, hl⟩
  usable := h.usable.symm

theorem Compares.swapped (h : Compares ctx relation f left right) :
    Compares ctx relation f.swapped left right ∨ Compares ctx relation f.swapped right left := by
  by_cases hf : f.ComparesParameters
  · rw [FunctionDecl.swapped_of_comparesParameters hf]
    exact .inr (h.reverse hf.2)
  · rw [FunctionDecl.swapped_of_not_comparesParameters hf]
    exact .inl h

theorem recorded_swapped {a b : TypeKey} {p : WitnessProperties}
    (h : WitnessSet.Recorded (contributions ctx relation f) a b p) :
    WitnessSet.Recorded (contributions ctx relation f.swapped) a b p := by
  obtain ⟨hp, left, right, hc, l, r, hl, hr, hs⟩ := recorded_contributions_iff.1 h
  refine recorded_contributions_iff.2 ⟨hp.trans f.properties_swapped.symm, ?_⟩
  rcases hc.swapped with hc | hc
  · exact ⟨left, right, hc, l, r, hl, hr, hs⟩
  · exact ⟨right, left, hc, r, l, hr, hl, hs.trans Sym2.eq_swap⟩

/-- A function is evidence for the same unordered pairs before and after swapping. -/
theorem recorded_swapped_iff {a b : TypeKey} {p : WitnessProperties} :
    WitnessSet.Recorded (contributions ctx relation f.swapped) a b p ↔
      WitnessSet.Recorded (contributions ctx relation f) a b p := by
  constructor
  · intro h
    have hback := recorded_swapped h
    rwa [FunctionDecl.swapped_swapped] at hback
  · exact recorded_swapped

end Relation

/-- The declaration with its parameters swapped if it is chosen and a comparison of two parameters.
-/
def Decl.swapped (chosen : DeclId → Bool) (d : Decl) : Decl :=
  match d.kind with
  | .function f => if chosen d.id then { d with kind := .function f.swapped } else d
  | .record _ | .enumeration _ | .other => d

/-- The view in which the chosen comparisons are written the other way round. -/
def View.swapping (chosen : DeclId → Bool) : View :=
  .editing (fun id f => if chosen id then f.swapped else f) fun id f => by
    split
    · exact f.signature_swapped
    · exact ⟨List.Subset.refl _, rfl, rfl⟩

namespace View

variable (chosen : DeclId → Bool)

theorem function_swapping (id : DeclId) (f : FunctionDecl) :
    (swapping chosen).function id f = some (if chosen id then f.swapped else f) := rfl

theorem decl_swapping : (swapping chosen).decl = Decl.swapped chosen := by
  funext d
  obtain ⟨id, name, definition, inLibrary, kind⟩ := d
  cases kind with
  | function f =>
    cases hc : chosen id with
    | false => simp [decl, View.kind, Decl.swapped, function_swapping, hc]
    | true => simp [decl, View.kind, Decl.swapped, function_swapping, hc]
  | record | enumeration | other => rfl

end View

namespace Analysis

/-- Whichever of the comparisons of two parameters are chosen: the unit in which these have their
parameters swapped is accepted, and the run ends with the same results in all three stores. -/
theorem run_of_swapped (a : Analysis) (chosen : DeclId → Bool) :
    ∃ v : SourceUnit, v.types = a.unit.types ∧
      v.decls = a.unit.decls.map (Decl.swapped chosen) ∧
      ∃ r, a.run = .ok r ∧ ({ a with unit := v } : Analysis).run = .ok r := by
  let swapped := a.viewed (View.swapping chosen) fun _ => rfl
  have hrun : swapped.run = a.run := by
    refine a.run_viewed _ (fun relation => ?_) ?_
    · refine @Relation.knows_witnesses_viewed (a.context .equality none) _ _ _ relation
        fun d _ x y p => ?_
      rw [Relation.contributed, View.function?_decl, Relation.contributed]
      cases d.function? with
      | none => rfl
      | some f =>
        cases hc : chosen d.id with
        | false => simp [View.function_swapping, hc]
        | true => simp [View.function_swapping, hc, Relation.recorded_swapped_iff]
    · refine @StringConversion.mem_candidates_viewed a.stringContext _ _ _ fun d _ => ?_
      rw [View.function?_decl]
      cases d.function? with
      | none => rfl
      | some f =>
        cases hc : chosen d.id with
        | false => simp [View.function_swapping, hc]
        | true => simp [View.function_swapping, hc, FunctionDecl.accepted?_swapped]
  refine ⟨swapped.unit, rfl, congrArg a.unit.decls.map (View.decl_swapping chosen), ?_⟩
  exact ⟨a.results, a.run_eq_results, hrun.trans a.run_eq_results⟩

end Analysis

end InteropWitness

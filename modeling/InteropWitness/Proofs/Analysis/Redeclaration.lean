import InteropWitness.Proofs.Analysis.Extension
import InteropWitness.Proofs.Analysis.Relation
import InteropWitness.Proofs.SourceUnit.Builder
import InteropWitness.Proofs.StringConversion.Redeclaration

namespace InteropWitness

section Redeclared

variable {ctx ctx' : Context} (h : ctx.ExtendedBy ctx') {d copy : Decl}
  (hr : ctx.unit.Redeclares ctx'.unit d copy)

include hr in
theorem mem_functions_of_redeclared (f : FunctionDecl) :
    f ∈ ctx'.unit.decls.filterMap (·.function?) ↔ f ∈ ctx.unit.decls.filterMap (·.function?) := by
  have hcopy : copy.function? = d.function? := by rw [Decl.function?, hr.alike.kind, Decl.function?]
  rw [hr.decls, List.filterMap_append, List.mem_append, or_iff_left_iff_imp, List.mem_filterMap]
  intro hmem
  obtain ⟨e, he, hf⟩ := hmem
  rw [List.mem_singleton.1 he, hcopy] at hf
  exact List.mem_filterMap.2 ⟨d, hr.mem, hf⟩

include h hr

namespace Relation

theorem mem_witnesses_of_redeclared (relation : Relation)
    (e : TypeKey × TypeKey × WitnessProperties) :
    e ∈ witnesses ctx' relation ↔ e ∈ witnesses ctx relation := by
  rw [witnesses, witnesses, List.mem_flatMap, List.mem_flatMap, contributions_of_extended h]
  simp only [mem_functions_of_redeclared hr]

theorem verdict_of_redeclared {relation : Relation}
    (hpermits : ∀ entity, permits ctx' relation entity = permits ctx relation entity)
    (entity : Identity) (e : Decl) (he : e ∈ ctx.unit.decls) :
    verdict ctx' relation entity e = verdict ctx relation entity e := by
  have hfind := WitnessSet.find?_ofList_congr (mem_witnesses_of_redeclared h hr relation)
  rw [verdict, verdict, hpermits, overridden_of_extended h, searchWitness_of_extended h he,
    SourceUnit.searchWitness_congr hfind]

/-- The entry of the copy is opened, by its import class, when the traversal comes by it. -/
theorem opened_of_redeclared : opened ctx' = opened ctx := by
  have hopened : opened ctx' = enter ctx copy (opened ctx) := by
    rw [opened, hr.decls, enter_of_extended h, List.foldl_append]
    rfl
  have hfits : Fits ctx (opened ctx) := fun entity v hv => (get?_opened_iff.1 hv).2
  have htag : copy.tagType? = d.tagType? := by rw [Decl.tagType?, hr.alike.kind, Decl.tagType?]
  rw [hopened]
  apply OrderedMap.eq_of_keys_prefix
  · rw [keys_enter]
    split
    · split
      · exact List.prefix_rfl
      · exact List.prefix_append _ _
    · exact List.prefix_rfl
  · intro entity
    rw [get?_enter hfits, htag, hr.alike.inLibrary, hr.identity]
    split
    · next hreports =>
      have hreported : ctx.unit.Reports entity := ⟨d, hr.mem, hreports⟩
      ext v
      rw [get?_opened_iff, and_iff_right hreported]
    · rfl

theorem resolved_of_redeclared {relation : Relation}
    (hpermits : ∀ entity, permits ctx' relation entity = permits ctx relation entity) :
    resolved ctx' relation = resolved ctx relation := by
  rw [resolved, resolved, opened_of_redeclared h hr]
  apply OrderedMap.mapValues_congr
  intro entity v hv
  obtain ⟨e, he, _, rfl⟩ := exists_defining_of_mem_opened (OrderedMap.mem_keys_of_get? hv)
  exact h.settled_eq (verdict_of_redeclared h hr hpermits) he v

end Relation

namespace StringConversion

theorem mem_candidates_of_redeclared (ty : TypeKey) :
    ty ∈ candidates ctx' ↔ ty ∈ candidates ctx := by
  rw [candidates, visitFunction_of_extended h, candidates, mem_foldl_visitFunction,
    mem_foldl_visitFunction]
  simp only [mem_functions_of_redeclared hr]

variable (hc : SourceUnit.Coherent ctx.unit.decls)
include hc

/-- The copy does what the declaration does, which has been done. -/
theorem revised_of_redeclared :
    revised ctx' copy ((opened ctx).get? d.identity) = (opened ctx).get? d.identity := by
  have hcopy : copy ∈ ctx'.unit.decls := by
    rw [hr.decls]
    exact List.mem_append_right _ List.mem_cons_self
  rw [revised_of_alike hcopy (h.unit.mem hr.mem) hr.identity hr.alike, revised_of_extended h hr.mem]
  by_cases hd : d.kind = .other
  · rw [revised, hd]
  · rw [get?_opened]
    apply revised_foldl_of_mem
    · intro e he
      obtain ⟨he, hid⟩ := List.mem_filter.1 he
      rw [decide_eq_true_eq] at hid
      by_cases hother : e.kind = .other
      · refine Or.inr fun old => ?_
        rw [revised, hother]
      · exact Or.inl (revised_of_alike he hr.mem hid (hc.alike he hr.mem hid hother hd))
    · exact List.mem_filter.2 ⟨hr.mem, decide_eq_true rfl⟩

theorem opened_of_redeclared : opened ctx' = opened ctx := by
  have hsame : ctx.unit.decls.foldl (fun store e => enter ctx' e store) .empty = opened ctx := by
    apply List.foldl_ext
    intro store e he
    rw [enter_of_extended h he]
  have hopened : opened ctx' = enter ctx' copy (opened ctx) := by
    rw [opened, hr.decls, List.foldl_append, hsame]
    rfl
  rw [hopened]
  apply OrderedMap.eq_of_keys_prefix (keys_prefix_enter copy _)
  intro entity
  rw [get?_enter, hr.identity]
  split
  · next hentity =>
    rw [hentity]
    exact revised_of_redeclared h hr hc
  · rfl

theorem resolved_of_redeclared : resolved ctx' = resolved ctx := by
  rw [resolved, resolved, opened_of_redeclared h hr hc]
  apply OrderedMap.mapValues_congr
  intro entity v hv
  obtain ⟨e, he, _, rfl⟩ := exists_defining_of_mem_opened (OrderedMap.mem_keys_of_get? hv)
  refine h.settled_eq (fun _ f hf => ?_) he v
  rw [judge_of_extended h hf, judge_congr (mem_candidates_of_redeclared h hr)]

end StringConversion

end Redeclared

namespace Analysis

variable (a : Analysis) {v : SourceUnit} {d copy : Decl} (hr : a.unit.Redeclares v d copy)
include hr

theorem relationStore_of_redeclared (relation : Relation) :
    ({ a with unit := v } : Analysis).relationStore relation = a.relationStore relation := by
  have hequality : ({ a with unit := v } : Analysis).relationStore .equality =
      a.relationStore .equality :=
    Relation.resolved_of_redeclared (a.context_extendedBy hr.extendedBy .equality none none) hr
      fun _ => rfl
  cases relation with
  | equality => exact hequality
  | ordering =>
    refine Relation.resolved_of_redeclared (a.context_extendedBy hr.extendedBy .ordering _ _) hr
      fun entity => ?_
    exact congrArg (fun store : Store RelationVerdict =>
      (store.get? entity).any (·.isAvailable)) hequality

theorem run_of_redeclared (hc : SourceUnit.Coherent a.unit.decls) :
    ({ a with unit := v } : Analysis).run = a.run := by
  have hstring : ({ a with unit := v } : Analysis).stringStore = a.stringStore :=
    StringConversion.resolved_of_redeclared
      (a.context_extendedBy hr.extendedBy .stringConversion _ _) hr hc
  rw [run_eq_results, run_eq_results, results, results, hstring,
    a.relationStore_of_redeclared hr .equality, a.relationStore_of_redeclared hr .ordering]

omit hr

/-- For every unit that steps build and every declaration in it: declaring that once more, which is
possible as long as positions can be counted, makes a unit in which every name stands for the same
entity, and that has the same results, in the same order, for all imports, enums and configurations.
-/
theorem results_of_redeclare {steps : List SourceUnit.Step} {u : SourceUnit}
    (h : SourceUnit.build steps = .ok u) {earlier : DeclId} (hhas : u.Has earlier) :
    ((∃ v, SourceUnit.build (steps ++ [.redeclare earlier]) = .ok v) ↔
        u.decls.length < UInt32.size) ∧
      ∀ v, SourceUnit.build (steps ++ [.redeclare earlier]) = .ok v →
        (∀ name, (v.named? name).map (·.identity) = (u.named? name).map (·.identity)) ∧
          ∀ inputs config, ∃ r,
            (Analysis.mk u inputs config).run = .ok r ∧
              (Analysis.mk v inputs config).run = .ok r := by
  obtain ⟨hbuilds, hredeclares⟩ := SourceUnit.build_redeclare h hhas
  refine ⟨hbuilds, fun v hv => ?_⟩
  obtain ⟨d, copy, hr⟩ := hredeclares v hv
  refine ⟨fun name => ?_, fun inputs config => ?_⟩
  · rw [hr.named?_eq name]
  · have hcoherent := SourceUnit.coherent_of_build h
    refine ⟨_, run_eq_results _, ?_⟩
    rw [← run_eq_results]
    exact (Analysis.mk u inputs config).run_of_redeclared hr hcoherent

/-- A record, declared again. -/
def pathSteps : List SourceUnit.Step :=
  [.record "pxr::Path" ⟨true, [], [], none⟩, .redeclare ⟨0⟩]

def pathInputs : Inputs := ⟨.ofList [(⟨⟨0⟩⟩, .value)], .empty⟩

/-- The redeclaration can be redeclared. -/
theorem results_of_pathSteps :
    ∃ u v r, SourceUnit.build pathSteps = .ok u ∧ u.Has ⟨1⟩ ∧
      SourceUnit.build (pathSteps ++ [.redeclare ⟨1⟩]) = .ok v ∧
        (Analysis.mk u pathInputs .default).run = .ok r ∧
          (Analysis.mk v pathInputs .default).run = .ok r := by
  obtain ⟨u, hu⟩ : ∃ u, SourceUnit.build pathSteps = .ok u :=
    ⟨⟨_, _, WellFormed.fault?_eq_none_iff.1 (by decide)⟩,
      SourceUnit.build_eq_ok_iff.2 ⟨rfl, rfl⟩⟩
  have hlength : u.decls.length = 2 := by
    rw [← (SourceUnit.build_eq_ok_iff.1 hu).1]
    rfl
  have hhas : u.Has ⟨1⟩ := by
    rw [SourceUnit.Has, hlength]
    decide
  obtain ⟨hbuilds, hresults⟩ := results_of_redeclare hu hhas
  obtain ⟨v, hv⟩ := hbuilds.2 (by rw [hlength]; decide)
  obtain ⟨r, hbefore, hafter⟩ := (hresults v hv).2 pathInputs .default
  exact ⟨u, v, r, hu, hhas, hv, hbefore, hafter⟩

end Analysis

end InteropWitness

import InteropWitness.Proofs.Relation.Run

namespace InteropWitness

namespace RelationVerdict

theorem eq_foundByConsumer_of_level {v : RelationVerdict} (h : level foundByConsumer ≤ v.level) :
    v = foundByConsumer := by
  cases v with
  | foundByConsumer => rfl
  | _ => simp [level, rank?, WitnessRank.level] at h

theorem best_eq_foundByConsumer_iff {proposals : List RelationVerdict} :
    best proposals = foundByConsumer ↔ foundByConsumer ∈ proposals := by
  simp only [best]
  constructor
  · intro h
    by_cases hfound : proposals.foldl upgrade unknown = unknown
    · rw [if_pos hfound] at h
      cases h
    · have hmem := (foldl_upgrade_mem proposals unknown).resolve_left hfound
      rw [if_neg hfound] at h
      rwa [h] at hmem
  · intro h
    have hfound := eq_foundByConsumer_of_level (level_le_of_mem h unknown)
    rw [hfound]
    rfl

end RelationVerdict

namespace SourceUnit

variable {u : SourceUnit} {w : WitnessSet}

/-- The pair of the own type is scanned for every declaration that defines its entity. -/
theorem searchWitness_eq_foundByConsumer_iff {d : Decl} (hd : u.Defines d) :
    u.searchWitness w d = .foundByConsumer ↔
      ∃ ty, d.tagType? = some ty ∧ d.specialization? = none ∧ u.isBool ty = false ∧
        w.find? ty ty = some ⟨false, false⟩ := by
  rw [searchWitness, RelationVerdict.best_eq_foundByConsumer_iff,
    (proposals_listedBy u w d).mem_iff]
  constructor
  · intro h
    obtain ⟨⟨_, turn⟩, ty, first, second, hty, _, _, _, hbool, _, h⟩ := h
    cases h with
    | @witness p _ _ hw h =>
      cases h with
      | foundByConsumer hf hs hspecialization hfriend hlate =>
        have hdirect : p = ⟨false, false⟩ := WitnessProperties.eq_direct hfriend hlate
        rw [hf, hs, hdirect] at hw
        rw [hf] at hbool
        exact ⟨ty, hty, by simpa using hspecialization, hbool, hw⟩
  · intro h
    obtain ⟨ty, hty, hspecialization, hbool, hw⟩ := h
    have hreached := hd.tagType_mem_conversionClosure hty .selfTypeBeforeConversions
    exact Proposed.of_reached hty hbool hreached hw
      (.foundByConsumer rfl rfl (by simp [hspecialization]) rfl rfl)

end SourceUnit

namespace Relation

/-- A comparison that the unit declares, neither as a friend nor as a late inline method, takes the
type on both sides, directly or as the self type of a template. -/
def HasDirectWitness (ctx : Context) (relation : Relation) (ty : TypeKey) : Prop :=
  ∃ d ∈ ctx.unit.decls, ∃ f, d.kind = .function f ∧ f.isFriend = false ∧
    ¬(f.isMethod = true ∧ f.isLateInline = true) ∧ ∃ left right,
      Compares ctx relation f left right ∧ Serves ctx.unit left ty ∧ Serves ctx.unit right ty

/-- An override says that the consumer misses the witness of the declaration. -/
def Missed (ctx : Context) (relation : Relation) (d : Decl) : Prop :=
  ∃ o ∈ ctx.config.relationTable, o.action = .missedByConsumer ∧ o.covers d relation = true

/-- The consumer finds a comparison of the declared type by itself. -/
def Found (ctx : Context) (relation : Relation) (d : Decl) : Prop :=
  ∃ ty, d.tagType? = some ty ∧ d.specialization? = none ∧ ctx.unit.isBool ty = false ∧
    ¬Forced ctx relation d ∧ ¬Missed ctx relation d ∧ HasDirectWitness ctx relation ty

variable {ctx : Context} {relation : Relation}

theorem properties_eq_direct_iff {f : FunctionDecl} :
    ⟨false, false⟩ = properties f ↔
      f.isFriend = false ∧ ¬(f.isMethod = true ∧ f.isLateInline = true) := by
  cases hf : f.isFriend <;> cases hm : f.isMethod <;> cases hl : f.isLateInline <;>
    simp [properties, hf, hm, hl]

theorem find?_witnesses_eq_direct_iff {ty : TypeKey} :
    (WitnessSet.ofList (witnesses ctx relation)).find? ty ty = some ⟨false, false⟩ ↔
      HasDirectWitness ctx relation ty := by
  rw [WitnessSet.find?_ofList_eq_direct_iff]
  constructor
  · intro h
    obtain ⟨⟨l, r, p⟩, he, hs, hp⟩ := h
    obtain ⟨rfl, rfl⟩ : ty = l ∧ ty = r := (Sym2.eq_iff.1 hs).elim id And.symm
    cases hp
    obtain ⟨f, hf, hmem⟩ := List.mem_flatMap.1 he
    obtain ⟨d, hd, hkind⟩ := mem_functions_iff.1 hf
    obtain ⟨hp, left, right, hc, hl, hr⟩ := mem_contributions_iff.1 hmem
    obtain ⟨hfriend, hlate⟩ := properties_eq_direct_iff.1 hp
    exact ⟨d, hd, f, hkind, hfriend, hlate, left, right, hc, hl, hr⟩
  · intro h
    obtain ⟨d, hd, f, hkind, hfriend, hlate, left, right, hc, hl, hr⟩ := h
    have hf := mem_functions_iff.2 ⟨d, hd, hkind⟩
    have hmem := mem_contributions_iff.2
      ⟨properties_eq_direct_iff.2 ⟨hfriend, hlate⟩, left, right, hc, hl, hr⟩
    exact ⟨(ty, ty, ⟨false, false⟩), List.mem_flatMap.2 ⟨f, hf, hmem⟩, rfl, rfl⟩

theorem missed_iff {d : Decl} :
    RelationOverride.prescribes ctx.config.relationTable .missedByConsumer d relation = true ↔
      Missed ctx relation d := by
  simp [RelationOverride.prescribes, Missed]

theorem overridden_eq_foundByConsumer_iff {d : Decl} {v : RelationVerdict} :
    overridden ctx relation d v = .foundByConsumer ↔
      v = .foundByConsumer ∧ ¬Forced ctx relation d ∧ ¬Missed ctx relation d := by
  rw [← missed_iff]
  unfold overridden
  by_cases hforced : Forced ctx relation d
  · simp [hforced]
  · by_cases hv : v = .foundByConsumer
    · cases RelationOverride.prescribes ctx.config.relationTable .missedByConsumer d relation
      · simp [hforced, hv]
      · simp [hforced, hv]
    · simp [hforced, hv]

theorem overridden_searchWitness_eq_missedByConsumer_iff {w : WitnessSet} {d : Decl} :
    overridden ctx relation d (ctx.unit.searchWitness w d) = .missedByConsumer ↔
      ctx.unit.searchWitness w d = .foundByConsumer ∧ ¬Forced ctx relation d ∧
        Missed ctx relation d := by
  rw [← missed_iff]
  have hsearch : ctx.unit.searchWitness w d ≠ .missedByConsumer := by
    intro h
    rcases ctx.unit.searchWitness_cases w d with ⟨_, hv⟩ | ⟨_, hv⟩
    · rw [h] at hv
      cases hv
    · rw [h] at hv
      exact absurd hv (by decide)
  generalize ctx.unit.searchWitness w d = v at hsearch ⊢
  unfold overridden
  by_cases hforced : Forced ctx relation d
  · simp [hforced]
  · by_cases hv : v = .foundByConsumer
    · cases RelationOverride.prescribes ctx.config.relationTable .missedByConsumer d relation
      · simp [hforced, hv]
      · simp [hforced, hv]
    · simp [hforced, hv, hsearch]

theorem verdict_eq_foundByConsumer_iff {entity : Identity} {d : Decl} (hd : ctx.unit.Defines d) :
    verdict ctx relation entity d = .foundByConsumer ↔
      permits ctx relation entity = true ∧ Found ctx relation d := by
  unfold verdict
  cases hpermits : permits ctx relation entity with
  | false => simp
  | true =>
    rw [if_pos rfl, overridden_eq_foundByConsumer_iff,
      SourceUnit.searchWitness_eq_foundByConsumer_iff hd]
    simp only [find?_witnesses_eq_direct_iff, Found, true_and]
    constructor
    · intro h
      obtain ⟨⟨ty, hty, hspecialization, hbool, hw⟩, hforced, hmissed⟩ := h
      exact ⟨ty, hty, hspecialization, hbool, hforced, hmissed, hw⟩
    · intro h
      obtain ⟨ty, hty, hspecialization, hbool, hforced, hmissed, hw⟩ := h
      exact ⟨⟨ty, hty, hspecialization, hbool, hw⟩, hforced, hmissed⟩

end Relation

end InteropWitness

import InteropWitness.Proofs.Relation.Run
import InteropWitness.Proofs.Relation.Upgrade
import InteropWitness.Proofs.SourceUnit.Inheritance

namespace InteropWitness

namespace SourceUnit

variable {u : SourceUnit} {d : Decl}

/-- The type is a record type whose definition is a specialization of the template with the self
type `self`. -/
def Specializes (u : SourceUnit) (ty self : TypeKey) : Prop :=
  ∃ id d r s, u.typeKind? ty = some (.record id) ∧ u.DeclaresRecord id d r ∧
    r.specialization = some s ∧ s.selfType = self

theorem injectedSelfType?_eq_some_iff {ty self : TypeKey} :
    u.injectedSelfType? ty = some self ↔ u.Specializes ty self := by
  simp only [injectedSelfType?, Option.bind_eq_some_iff, Option.map_eq_some_iff, Prod.exists,
    recordOfType?_eq_some_iff]
  constructor
  · intro h
    obtain ⟨d, r, ⟨id, hkind, hd⟩, s, hs, rfl⟩ := h
    exact ⟨id, d, r, s, hkind, hd, hs, rfl⟩
  · intro h
    obtain ⟨id, d, r, s, hkind, hd, hs, rfl⟩ := h
    exact ⟨d, r, ⟨id, hkind, hd⟩, s, hs, rfl⟩

theorem selfType_mem_conversionClosure {s : Specialization} (h : d.specialization? = some s)
    (order : ClosureOrder) : s.selfType ∈ u.conversionClosure order d := by
  obtain ⟨r, hkind, hs⟩ := Decl.specialization?_eq_some_iff.1 h
  rw [conversionClosure, hkind]
  cases order <;> simp [hs]

variable {w : WitnessSet}

/-- A witness over the self type of its template makes of a specialization at least that. -/
theorem level_le_searchWitness_of_shared {s : Specialization} (h : d.specialization? = some s)
    (hbool : u.isBool s.selfType = false)
    (hw : (w.find? s.selfType s.selfType).isSome = true) :
    RelationVerdict.templateSpecialization.level ≤ (u.searchWitness w d).level := by
  obtain ⟨r, hkind, _⟩ := Decl.specialization?_eq_some_iff.1 h
  obtain ⟨p, hp⟩ := Option.isSome_iff_exists.1 hw
  have hty : d.tagType? = some r.ty := Decl.tagType?_eq_some_iff.2 (.inl ⟨r, hkind, rfl⟩)
  have hreached := selfType_mem_conversionClosure (u := u) h .selfTypeBeforeConversions
  exact level_le_searchWitness_of_reached hty hbool hreached hp (.specialization (by rw [h]; rfl))

end SourceUnit

namespace Relation

/-- A comparison that the unit declares takes specializations of the template with the self type
`self` on both sides. -/
def HasSharedWitness (ctx : Context) (relation : Relation) (self : TypeKey) : Prop :=
  ∃ d ∈ ctx.unit.decls, ∃ f, d.kind = .function f ∧ ∃ left right,
    Compares ctx relation f left right ∧ ctx.unit.Specializes left self ∧
      ctx.unit.Specializes right self

variable {ctx : Context} {relation : Relation} {entity : Identity} {d : Decl} {s : Specialization}

theorem HasSharedWitness.hasWitness {self : TypeKey} (h : HasSharedWitness ctx relation self) :
    HasWitness ctx relation self self := by
  obtain ⟨d, hd, f, hf, left, right, hc, hl, hr⟩ := h
  exact ⟨d, hd, f, hf, left, right, hc, self, self,
    .inr (SourceUnit.injectedSelfType?_eq_some_iff.2 hl),
    .inr (SourceUnit.injectedSelfType?_eq_some_iff.2 hr), rfl⟩

theorem overridden_of_level {v : RelationVerdict} (hforced : ¬Forced ctx relation d)
    (hlevel : v.level ≤ RelationVerdict.friendFunction.level) :
    overridden ctx relation d v = v := by
  have hne : v ≠ .foundByConsumer := by
    rintro rfl
    exact absurd hlevel (by decide)
  simp [overridden, hforced, hne]

variable (hpermits : permits ctx relation entity = true) (hforced : ¬Forced ctx relation d)
  (hs : d.specialization? = some s)
include hpermits hforced hs

theorem verdict_of_specialization :
    verdict ctx relation entity d =
      ctx.unit.searchWitness (.ofList (witnesses ctx relation)) d := by
  have hspec : d.specialization?.isSome = true := by rw [hs]; rfl
  rw [verdict, if_pos hpermits,
    overridden_of_level hforced (SourceUnit.level_searchWitness_le_of_specialization hspec)]

theorem level_verdict_of_specialization :
    (verdict ctx relation entity d).level ≤ RelationVerdict.friendFunction.level := by
  have hspec : d.specialization?.isSome = true := by rw [hs]; rfl
  rw [verdict_of_specialization hpermits hforced hs]
  exact SourceUnit.level_searchWitness_le_of_specialization hspec

/-- The consumer finds no comparison of a specialization by itself, whether at once or late. -/
theorem verdict_not_mem_of_specialization :
    verdict ctx relation entity d ∉
      [RelationVerdict.foundByConsumer, .missedByConsumer, .lateInlineMethod] := by
  have hle := level_verdict_of_specialization hpermits hforced hs
  have hcases := ctx.unit.searchWitness_cases (.ofList (witnesses ctx relation)) d
  rw [← verdict_of_specialization hpermits hforced hs] at hcases
  generalize verdict ctx relation entity d = v at hle hcases ⊢
  rcases hcases with ⟨_, rfl⟩ | ⟨_, hpos⟩
  · decide
  · have hlevels : ∀ w ∈ [RelationVerdict.foundByConsumer, .missedByConsumer, .lateInlineMethod],
        w.level = 0 ∨ RelationVerdict.friendFunction.level < w.level := by decide
    intro hmem
    rcases hlevels v hmem with hlevel | hlevel
    · omega
    · omega

/-- All specializations of a template convert to its self type, so what one of them can be compared
by serves the others; and no verdict on one of them is above that of a friend. -/
theorem verdict_mem_of_shared (hbool : ctx.unit.isBool s.selfType = false)
    (hw : HasSharedWitness ctx relation s.selfType) :
    verdict ctx relation entity d ∈ [RelationVerdict.templateSpecialization, .friendFunction] := by
  have hle := level_verdict_of_specialization hpermits hforced hs
  have hge := SourceUnit.level_le_searchWitness_of_shared hs hbool
    (isSome_find?_witnesses.2 hw.hasWitness)
  rw [← verdict_of_specialization hpermits hforced hs] at hge
  rcases Nat.lt_or_eq_of_le hle with hlt | hfriend
  · have hlevel := Nat.le_antisymm (Nat.le_of_lt_succ hlt) hge
    rw [RelationVerdict.eq_templateSpecialization_of_level hlevel]
    exact List.mem_cons_self
  · rw [RelationVerdict.eq_friendFunction_of_level hfriend]
    exact List.mem_cons_of_mem _ List.mem_cons_self

end Relation

end InteropWitness

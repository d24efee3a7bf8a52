import InteropWitness.Proofs.Relation.Proposals
import InteropWitness.Proofs.Witness

namespace InteropWitness

namespace RelationVerdict

theorem level_pos_iff {v : RelationVerdict} : 0 < v.level ↔ v.rank?.isSome = true := by
  unfold level
  cases v.rank? with
  | none => simp
  | some r => cases r <;> simp [WitnessRank.level]

theorem isAvailable_of_level_pos {v : RelationVerdict} (h : 0 < v.level) :
    v.isAvailable = true := by
  rw [level_pos_iff] at h
  cases v <;> first | rfl | cases h

/-- The running maximum stays with what it started from or ends with the first proposal that
outranks everything before it and is outranked by nothing after it. -/
theorem foldl_upgrade_cases (proposals : List RelationVerdict) (current : RelationVerdict) :
    (proposals.foldl upgrade current = current ∧ ∀ v ∈ proposals, v.level ≤ current.level) ∨
      ∃ pre post, proposals = pre ++ proposals.foldl upgrade current :: post ∧
        current.level < (proposals.foldl upgrade current).level ∧
        (∀ v ∈ pre, v.level < (proposals.foldl upgrade current).level) ∧
        ∀ v ∈ post, v.level ≤ (proposals.foldl upgrade current).level := by
  induction proposals generalizing current with
  | nil => exact .inl ⟨rfl, by simp⟩
  | cons v rest ih =>
    rw [List.foldl_cons]
    by_cases hlt : current.level < v.level
    · have hstep : upgrade current v = v := if_pos hlt
      rw [hstep]
      rcases ih v with ⟨hv, hrest⟩ | ⟨pre, post, heq, hgt, hpre, hpost⟩
      · rw [hv]
        exact .inr ⟨[], rest, rfl, hlt, by simp, hrest⟩
      · refine .inr ⟨v :: pre, post, congrArg (v :: ·) heq, Nat.lt_trans hlt hgt, ?_, hpost⟩
        exact List.forall_mem_cons.2 ⟨hgt, hpre⟩
    · have hstep : upgrade current v = current := if_neg hlt
      rw [hstep]
      rcases ih current with ⟨hc, hrest⟩ | ⟨pre, post, heq, hgt, hpre, hpost⟩
      · exact .inl ⟨hc, List.forall_mem_cons.2 ⟨Nat.not_lt.1 hlt, hrest⟩⟩
      · refine .inr ⟨v :: pre, post, congrArg (v :: ·) heq, hgt, ?_, hpost⟩
        exact List.forall_mem_cons.2 ⟨Nat.lt_of_le_of_lt (Nat.not_lt.1 hlt) hgt, hpre⟩

theorem level_le_of_mem {proposals : List RelationVerdict} {v : RelationVerdict}
    (hv : v ∈ proposals) (current : RelationVerdict) :
    v.level ≤ (proposals.foldl upgrade current).level := by
  rcases foldl_upgrade_cases proposals current with ⟨hc, hle⟩ | ⟨pre, post, heq, _, hpre, hpost⟩
  · rw [hc]
    exact hle v hv
  · rw [heq] at hv
    rcases List.mem_append.1 hv with hv | hv
    · exact Nat.le_of_lt (hpre v hv)
    · rcases List.mem_cons.1 hv with rfl | hv
      · exact Nat.le_refl _
      · exact hpost v hv

theorem foldl_upgrade_mem (proposals : List RelationVerdict) (current : RelationVerdict) :
    proposals.foldl upgrade current = current ∨ proposals.foldl upgrade current ∈ proposals := by
  rcases foldl_upgrade_cases proposals current with ⟨hc, _⟩ | ⟨pre, post, heq, _⟩
  · exact Or.inl hc
  · generalize proposals.foldl upgrade current = best at heq
    rw [heq]
    exact Or.inr (List.mem_append_right _ List.mem_cons_self)

/-- Among ranked proposals the best is the first of the highest rank. -/
theorem best_is_first {proposals : List RelationVerdict} (hne : proposals ≠ [])
    (hpos : ∀ v ∈ proposals, 0 < v.level) :
    ∃ pre post, proposals = pre ++ best proposals :: post ∧
      (∀ v ∈ pre, v.level < (best proposals).level) ∧
      ∀ v ∈ post, v.level ≤ (best proposals).level := by
  rcases foldl_upgrade_cases proposals .unknown with ⟨-, hle⟩ | ⟨pre, post, heq, hgt, hpre, hpost⟩
  · obtain ⟨v, hv⟩ := List.exists_mem_of_ne_nil proposals hne
    exact absurd (hpos v hv) (Nat.not_lt.2 (hle v hv))
  · have hbest : best proposals = proposals.foldl upgrade .unknown :=
      if_neg fun h => by rw [h] at hgt; exact absurd hgt (Nat.lt_irrefl _)
    rw [hbest]
    exact ⟨pre, post, heq, hpre, hpost⟩

example : best [.differentTypes "Base" "Box", .differentTypes "Box" "Box"] =
    .differentTypes "Base" "Box" := rfl

theorem best_mem {proposals : List RelationVerdict} (hne : proposals ≠ [])
    (hpos : ∀ v ∈ proposals, 0 < v.level) : best proposals ∈ proposals := by
  obtain ⟨pre, post, heq, _⟩ := best_is_first hne hpos
  generalize best proposals = found at heq
  rw [heq]
  exact List.mem_append_right _ List.mem_cons_self

end RelationVerdict

theorem exists_witnessProposes (this : TypeKey) (isSpecialization : Bool) (p : WitnessProperties)
    (first second : TypeKey) :
    ∃ turn v, WitnessProposes this isSpecialization p first second turn v := by
  by_cases hother : first ≠ this ∨ second ≠ this
  · exact ⟨_, _, .differentTypes hother⟩
  obtain ⟨hf, hs⟩ : first = this ∧ second = this := by simpa using hother
  cases hspec : isSpecialization with
  | true => exact ⟨_, _, .specialization rfl⟩
  | false =>
    cases hfriend : p.isFriend with
    | true => exact ⟨_, _, .friendFunction hf hs hfriend⟩
    | false =>
      cases hlate : p.isLateInline with
      | true => exact ⟨_, _, .lateInlineMethod hf hs rfl hfriend hlate⟩
      | false => exact ⟨_, _, .foundByConsumer hf hs rfl hfriend hlate⟩

namespace SourceUnit

variable {u : SourceUnit} {w : WitnessSet}

/-- Values of the two types can be compared, by a witness or as builtin numbers. A conversion to
bool is no way to a comparison. -/
def Comparable (u : SourceUnit) (w : WitnessSet) (first second : TypeKey) : Prop :=
  u.isBool first = false ∧ u.isBool second = false ∧
    ((u.isArithmetic first = true ∧ u.isArithmetic second = true) ∨
      (w.find? first second).isSome = true)

theorem searchWitness_congr {w' : WitnessSet} (h : ∀ a b, w.find? a b = w'.find? a b) (d : Decl) :
    u.searchWitness w d = u.searchWitness w' d := by
  have hpairs : u.pairProposals w = u.pairProposals w' := by
    funext this isSpecialization pair
    simp only [pairProposals, h]
  rw [searchWitness, searchWitness, proposals, proposals, hpairs]

theorem Comparable.symm {first second : TypeKey} (h : Comparable u w first second) :
    Comparable u w second first := by
  obtain ⟨hf, hs, harith | hwit⟩ := h
  · exact ⟨hs, hf, Or.inl ⟨harith.2, harith.1⟩⟩
  · exact ⟨hs, hf, Or.inr (by rw [WitnessSet.find?_comm]; exact hwit)⟩

theorem Proposed.level_pos {d : Decl} {place : (Nat × Nat) × Nat} {v : RelationVerdict}
    (h : Proposed u w d place v) : 0 < v.level := by
  obtain ⟨_, turn⟩ := place
  obtain ⟨_, _, _, _, _, _, _, _, _, h⟩ := h
  cases h with
  | arithmetic => exact Nat.one_pos
  | witness _ h => cases h <;> exact Nat.succ_pos _

theorem level_pos_of_mem_proposals {d : Decl} {v : RelationVerdict}
    (hv : v ∈ u.proposals w d) : 0 < v.level := by
  obtain ⟨_, h⟩ := (proposals_listedBy u w d).mem_iff.1 hv
  exact h.level_pos

theorem comparable_iff {this first second : TypeKey} {isSpecialization : Bool} :
    Comparable u w first second ↔ u.isBool first = false ∧ u.isBool second = false ∧
      ∃ turn v, PairProposes u w this isSpecialization first second turn v := by
  refine and_congr_right fun _ => and_congr_right fun _ => ⟨fun h => ?_, fun h => ?_⟩
  · rcases h with ⟨hf, hs⟩ | h
    · exact ⟨_, _, .arithmetic hf hs⟩
    · obtain ⟨p, hp⟩ := Option.isSome_iff_exists.1 h
      obtain ⟨turn, v, h⟩ := exists_witnessProposes this isSpecialization p first second
      exact ⟨turn, v, .witness hp h⟩
  · obtain ⟨turn, v, h⟩ := h
    cases h with
    | arithmetic hf hs => exact .inl ⟨hf, hs⟩
    | witness hp => exact .inr (by rw [hp]; rfl)

theorem conversionClosure_eq_nil {d : Decl} (order : ClosureOrder) (h : d.tagType? = none) :
    u.conversionClosure order d = [] := by
  unfold Decl.tagType? at h
  unfold conversionClosure
  cases hkind : d.kind with
  | record r => simp [hkind] at h
  | enumeration e => simp [hkind] at h
  | function f => rfl
  | other => rfl

/-- Something is proposed for a declaration exactly if two types of its closure are comparable. The
scan meets each unordered pair in one order only, which suffices as comparing is symmetric. -/
theorem proposals_ne_nil_iff {d : Decl} :
    u.proposals w d ≠ [] ↔
      ∃ first ∈ u.conversionClosure .selfTypeBeforeConversions d,
        ∃ second ∈ u.conversionClosure .selfTypeBeforeConversions d,
          Comparable u w first second := by
  constructor
  · intro h
    obtain ⟨v, hv⟩ := List.exists_mem_of_ne_nil _ h
    obtain ⟨place, this, first, second, _, _, hf, hs, hbf, hbs, h⟩ :=
      (proposals_listedBy u w d).mem_iff.1 hv
    exact ⟨first, List.mem_reverse.1 (List.mem_of_getElem? hf), second,
      List.mem_reverse.1 (List.mem_of_getElem? hs), comparable_iff.2 ⟨hbf, hbs, _, _, h⟩⟩
  · intro h
    obtain ⟨first, hf, second, hs, hc⟩ := h
    cases ht : d.tagType? with
    | none =>
      rw [conversionClosure_eq_nil _ ht] at hf
      cases hf
    | some this =>
      obtain ⟨i, hi⟩ := List.mem_iff_getElem?.1 (List.mem_reverse.2 hf)
      obtain ⟨j, hj⟩ := List.mem_iff_getElem?.1 (List.mem_reverse.2 hs)
      rcases Nat.le_total i j with hle | hle
      · obtain ⟨hbf, hbs, turn, v, hv⟩ := comparable_iff.1 hc
        exact List.ne_nil_of_mem ((proposals_listedBy u w d).mem_iff.2
          ⟨((i, j), turn), this, first, second, ht, hle, hi, hj, hbf, hbs, hv⟩)
      · obtain ⟨hbs, hbf, turn, v, hv⟩ := comparable_iff.1 hc.symm
        exact List.ne_nil_of_mem ((proposals_listedBy u w d).mem_iff.2
          ⟨((j, i), turn), this, second, first, ht, hle, hj, hi, hbs, hbf, hv⟩)

theorem searchWitness_cases (u : SourceUnit) (w : WitnessSet) (d : Decl) :
    (u.proposals w d = [] ∧ u.searchWitness w d = .unavailable) ∨
      (u.proposals w d ≠ [] ∧ 0 < (u.searchWitness w d).level) := by
  by_cases hne : u.proposals w d = []
  · refine Or.inl ⟨hne, ?_⟩
    rw [searchWitness, hne]
    rfl
  · refine Or.inr ⟨hne, ?_⟩
    have hmem := RelationVerdict.best_mem hne (fun v hv => level_pos_of_mem_proposals hv)
    exact level_pos_of_mem_proposals hmem

theorem isAvailable_searchWitness_iff {d : Decl} :
    (u.searchWitness w d).isAvailable = true ↔ u.proposals w d ≠ [] := by
  rcases searchWitness_cases u w d with ⟨hnil, hv⟩ | ⟨hne, hv⟩
  · simp [hnil, hv, RelationVerdict.isAvailable]
  · simp [hne, RelationVerdict.isAvailable_of_level_pos hv]

/-- A search finds nothing exactly where nothing is proposed. Otherwise its verdict is proposed at a
place such that any other proposal has a lower rank or, if it comes later, at most the same rank. -/
theorem searchWitness_is_first_best (u : SourceUnit) (w : WitnessSet) (d : Decl) :
    (u.searchWitness w d = .unavailable ↔ ∀ place v, ¬Proposed u w d place v) ∧
      (u.searchWitness w d = .unavailable ∨
        ∃ place, Proposed u w d place (u.searchWitness w d) ∧
          ∀ place' v, Proposed u w d place' v →
            (place' = place ∧ v = u.searchWitness w d) ∨
            (Sooner place' place ∧ v.level < (u.searchWitness w d).level) ∨
            (Sooner place place' ∧ v.level ≤ (u.searchWitness w d).level)) ∧
      u.searchWitness w d ≠ .unknown := by
  have hlisted := proposals_listedBy u w d
  rcases searchWitness_cases u w d with ⟨hnil, hv⟩ | ⟨hne, hpos⟩
  · refine ⟨⟨fun _ place v h => ?_, fun _ => hv⟩, .inl hv, by rw [hv]; decide⟩
    have hmem := hlisted.mem_iff.2 ⟨place, h⟩
    rw [hnil] at hmem
    cases hmem
  · obtain ⟨pre, post, heq, hpre, hpost⟩ :=
      RelationVerdict.best_is_first hne (fun v hv => level_pos_of_mem_proposals hv)
    rw [heq] at hlisted
    obtain ⟨place, hplace, hothers⟩ := hlisted.split
    refine ⟨⟨fun h => ?_, fun h => absurd hplace (h place _)⟩, .inr ⟨place, hplace, ?_⟩, ?_⟩
    · rw [h] at hpos
      exact absurd hpos (by decide)
    · intro place' v h
      rcases hothers place' v h with ⟨hv, hlt⟩ | hsame | ⟨hv, hlt⟩
      · exact .inr (.inl ⟨hlt, hpre v hv⟩)
      · exact .inl hsame
      · exact .inr (.inr ⟨hlt, hpost v hv⟩)
    · intro h
      rw [h] at hpos
      exact absurd hpos (by decide)

end SourceUnit

end InteropWitness

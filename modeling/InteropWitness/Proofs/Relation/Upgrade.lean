import InteropWitness.Proofs.Relation.Search
import InteropWitness.Proofs.SourceUnit.Identity

namespace InteropWitness

/-- A pair with a friend counts as a friend until a witness that is none comes for it. -/
theorem WitnessProperties.isFriend_strongest {q : WitnessProperties} (h : q.isFriend = true)
    (p : WitnessProperties) : (strongest (some q) p).isFriend = p.isFriend := by
  obtain ⟨qf, ql⟩ := q
  obtain ⟨pf, pl⟩ := p
  cases h
  cases ql <;> cases pf <;> cases pl <;> rfl

theorem WitnessProperties.isFriend_of_weight_le {q r : WitnessProperties}
    (h : q.weight ≤ r.weight) (hq : q.isFriend = false) : r.isFriend = false := by
  obtain ⟨qf, ql⟩ := q
  obtain ⟨rf, rl⟩ := r
  cases hq
  cases ql <;> cases rf <;> cases rl <;> simp_all [weight]

theorem WitnessSet.find?_insert_of_find? {w : WitnessSet} {c d : TypeKey} {q : WitnessProperties}
    (h : w.find? c d = some q) (a b : TypeKey) (p : WitnessProperties) :
    (w.insert a b p).find? c d = some q ∨
      (s(c, d) = s(a, b) ∧ (w.insert a b p).find? c d = some (.strongest (some q) p)) := by
  rw [find?_insert]
  by_cases hsame : s(c, d) = s(a, b)
  · have hq : w.find? a b = some q := by rw [← h, find?, find?, pair_eq_pair_iff.2 hsame]
    rw [if_pos hsame, hq]
    exact .inr ⟨hsame, rfl⟩
  · rw [if_neg hsame]
    exact .inl h

namespace RelationVerdict

/-- No proposal is above the best, and the best is nothing more than the highest of them. -/
theorem level_best_le_iff {proposals : List RelationVerdict} {n : Nat} :
    (best proposals).level ≤ n ↔ ∀ v ∈ proposals, v.level ≤ n := by
  have hlevel : (best proposals).level = (proposals.foldl upgrade .unknown).level := by
    unfold best
    simp only
    split
    · next h => rw [h]; rfl
    · rfl
  rw [hlevel]
  constructor
  · intro h v hv
    exact (level_le_of_mem hv .unknown).trans h
  · intro h
    rcases foldl_upgrade_mem proposals .unknown with hfound | hfound
    · rw [hfound]
      exact Nat.zero_le n
    · exact h _ hfound

theorem eq_templateSpecialization_of_level {v : RelationVerdict} (h : v.level = 2) :
    v = .templateSpecialization := by
  cases v <;> first | rfl | cases h

theorem eq_friendFunction_of_level {v : RelationVerdict} (h : v.level = 3) :
    v = .friendFunction := by
  cases v <;> first | rfl | cases h

end RelationVerdict

/-- A stronger witness of the same pair is worth at least as much, except that a specialization has
no use for one of its own type that is no friend. -/
theorem WitnessProposes.upgrade {this first second : TypeKey} {isSpecialization : Bool}
    {q r : WitnessProperties} {turn : Nat} {v : RelationVerdict}
    (h : WitnessProposes this isSpecialization q first second turn v)
    (hle : q.weight ≤ r.weight) :
    (∃ turn' v', WitnessProposes this isSpecialization r first second turn' v' ∧
      v.level ≤ v'.level) ∨
    (isSpecialization = true ∧ first = this ∧ second = this ∧ q.isFriend = true ∧
      r.isFriend = false) := by
  cases h with
  | specialization hspec => exact .inl ⟨_, _, .specialization hspec, Nat.le_refl _⟩
  | differentTypes hother => exact .inl ⟨_, _, .differentTypes hother, Nat.le_refl _⟩
  | friendFunction hf hs hfriend =>
    cases hr : r.isFriend with
    | true => exact .inl ⟨_, _, .friendFunction hf hs hr, Nat.le_refl _⟩
    | false =>
      cases hspec : isSpecialization with
      | true => exact .inr ⟨rfl, hf, hs, hfriend, rfl⟩
      | false =>
        cases hlate : r.isLateInline with
        | true => exact .inl ⟨_, _, .lateInlineMethod hf hs rfl hr hlate, by decide⟩
        | false => exact .inl ⟨_, _, .foundByConsumer hf hs rfl hr hlate, by decide⟩
  | lateInlineMethod hf hs hspec hfriend hlate =>
    have hr := WitnessProperties.isFriend_of_weight_le hle hfriend
    cases hlate' : r.isLateInline with
    | true => exact .inl ⟨_, _, .lateInlineMethod hf hs hspec hr hlate', Nat.le_refl _⟩
    | false => exact .inl ⟨_, _, .foundByConsumer hf hs hspec hr hlate', by decide⟩
  | foundByConsumer hf hs hspec hfriend hlate =>
    have hsame : q = r := by
      have hdirect : q = ⟨false, false⟩ := WitnessProperties.eq_direct hfriend hlate
      refine WitnessProperties.weight_injective (Nat.le_antisymm hle ?_)
      rw [hdirect]
      exact r.weight_le_direct
    rw [hsame] at hfriend hlate
    exact .inl ⟨_, _, .foundByConsumer hf hs hspec hfriend hlate, Nat.le_refl _⟩

namespace SourceUnit

variable {u : SourceUnit} {w : WitnessSet} {d : Decl} {a b : TypeKey} {p : WitnessProperties}

theorem level_searchWitness_le_iff {n : Nat} :
    (u.searchWitness w d).level ≤ n ↔ ∀ place v, Proposed u w d place v → v.level ≤ n := by
  rw [searchWitness, RelationVerdict.level_best_le_iff]
  constructor
  · intro h place v hv
    exact h v ((proposals_listedBy u w d).mem_iff.2 ⟨place, hv⟩)
  · intro h v hv
    obtain ⟨place, hv⟩ := (proposals_listedBy u w d).mem_iff.1 hv
    exact h place v hv

theorem Proposed.level_le {place : (Nat × Nat) × Nat} {v : RelationVerdict}
    (h : Proposed u w d place v) : v.level ≤ (u.searchWitness w d).level :=
  level_searchWitness_le_iff.1 (Nat.le_refl _) place v h

/-- What a witness over one type proposes bounds the verdict of a declaration that converts to that
type from below. -/
theorem level_le_searchWitness_of_reached {this ty : TypeKey} {q : WitnessProperties} {turn : Nat}
    {v : RelationVerdict} (ht : d.tagType? = some this) (hbool : u.isBool ty = false)
    (hreached : ty ∈ u.conversionClosure .selfTypeBeforeConversions d)
    (hq : w.find? ty ty = some q)
    (h : WitnessProposes this d.specialization?.isSome q ty ty turn v) :
    v.level ≤ (u.searchWitness w d).level := by
  obtain ⟨_, hproposed⟩ := Proposed.of_reached ht hbool hreached hq h
  exact hproposed.level_le

/-- The consumer compares values of a specialization by a friend, and the witness inserted for the
pair of its own type is none. -/
structure Displaces (u : SourceUnit) (w : WitnessSet) (d : Decl) (a b : TypeKey)
    (p : WitnessProperties) : Prop where
  isSpecialization : d.specialization?.isSome = true
  own : d.tagType? = some a
  same : b = a
  notBool : u.isBool a = false
  reached : a ∈ u.conversionClosure .selfTypeBeforeConversions d
  friend : ∃ q, w.find? a a = some q ∧ q.isFriend = true
  notFriend : p.isFriend = false

/-- What is proposed for a declaration is proposed again, or something of a higher rank, after an
insertion that displaces no friend. -/
theorem Proposed.insert {place : (Nat × Nat) × Nat} {v : RelationVerdict}
    (h : Proposed u w d place v) (hnot : ¬Displaces u w d a b p) :
    ∃ place' v', Proposed u (w.insert a b p) d place' v' ∧ v.level ≤ v'.level := by
  obtain ⟨indices, turn⟩ := place
  obtain ⟨ty, first, second, ht, hle, hf, hs, hbf, hbs, h⟩ := h
  suffices hpair : ∃ turn' v', PairProposes u (w.insert a b p) ty d.specialization?.isSome first
      second turn' v' ∧ v.level ≤ v'.level by
    obtain ⟨turn', v', h', hlevel⟩ := hpair
    exact ⟨(indices, turn'), v', ⟨ty, first, second, ht, hle, hf, hs, hbf, hbs, h'⟩, hlevel⟩
  cases h with
  | arithmetic haf has => exact ⟨_, _, .arithmetic haf has, Nat.le_refl _⟩
  | @witness q _ _ hq h =>
    rcases WitnessSet.find?_insert_of_find? hq a b p with hkept | ⟨hsame, hmerged⟩
    · exact ⟨_, _, .witness hkept h, Nat.le_refl _⟩
    rcases h.upgrade (WitnessProperties.weight_old_le_strongest q p) with h' | hlost
    · obtain ⟨turn', v', h', hlevel⟩ := h'
      exact ⟨turn', v', .witness hmerged h', hlevel⟩
    · obtain ⟨hspec, rfl, rfl, hfriend, hlost⟩ := hlost
      obtain ⟨rfl, rfl⟩ : second = a ∧ second = b :=
        (Sym2.eq_iff.1 hsame).elim id fun h => ⟨h.2, h.1⟩
      rw [WitnessProperties.isFriend_strongest hfriend] at hlost
      have hreached := List.mem_reverse.1 (List.mem_of_getElem? hf)
      exact absurd ⟨hspec, ht, rfl, hbf, hreached, ⟨q, hq, hfriend⟩, hlost⟩ hnot

theorem level_le_searchWitness_insert (hnot : ¬Displaces u w d a b p) :
    (u.searchWitness w d).level ≤ (u.searchWitness (w.insert a b p) d).level := by
  rw [level_searchWitness_le_iff]
  intro place v h
  obtain ⟨place', v', h', hle⟩ := h.insert hnot
  exact hle.trans h'.level_le

/-- Without a specialization there is no exception, whatever witnesses come in whatever order. -/
theorem level_searchWitness_le_append (hd : d.specialization? = none)
    (known more : List (TypeKey × TypeKey × WitnessProperties)) :
    (u.searchWitness (.ofList known) d).level ≤
      (u.searchWitness (.ofList (known ++ more)) d).level := by
  induction more generalizing known with
  | nil => simp
  | cons e rest ih =>
    have hnot : ¬Displaces u (.ofList known) d e.1 e.2.1 e.2.2 := fun h => by
      have hspec := h.isSpecialization
      rw [hd] at hspec
      cases hspec
    have hstep := level_le_searchWitness_insert hnot
    have hrest := ih (known ++ [e])
    rw [List.append_assoc] at hrest
    refine hstep.trans (le_trans ?_ hrest)
    rw [WitnessSet.ofList, WitnessSet.ofList, List.foldl_append]
    exact Nat.le_refl _

theorem Proposed.level_of_specialization {place : (Nat × Nat) × Nat} {v : RelationVerdict}
    (h : Proposed u w d place v) (hd : d.specialization?.isSome = true) :
    v.level ≤ 2 ∨ (v.level = 3 ∧
      ∃ ty q, d.tagType? = some ty ∧ w.find? ty ty = some q ∧ q.isFriend = true) := by
  obtain ⟨indices, turn⟩ := place
  obtain ⟨ty, first, second, ht, _, _, _, _, _, h⟩ := h
  cases h with
  | arithmetic => exact .inl (Nat.le_succ 1)
  | @witness q _ _ hq h =>
    rw [hd] at h
    cases h with
    | specialization => exact .inl (Nat.le_refl 2)
    | differentTypes => exact .inl (Nat.le_succ 1)
    | friendFunction hf hs hfriend =>
      rw [hf, hs] at hq
      exact .inr ⟨rfl, ty, q, ht, hq, hfriend⟩
    | lateInlineMethod _ _ hspec => cases hspec
    | foundByConsumer _ _ hspec => cases hspec

theorem level_searchWitness_le_of_specialization (h : d.specialization?.isSome = true) :
    (u.searchWitness w d).level ≤ RelationVerdict.friendFunction.level := by
  rw [level_searchWitness_le_iff]
  intro place v hv
  rcases hv.level_of_specialization h with hlow | ⟨hfriend, _⟩
  · exact hlow.trans (Nat.le_succ 2)
  · exact Nat.le_of_eq hfriend

/-- A displaced friend takes the verdict down to what a specialization has without one. -/
theorem Displaces.searchWitness_eq (h : Displaces u w d a b p) :
    u.searchWitness w d = .friendFunction ∧
      u.searchWitness (w.insert a b p) d = .templateSpecialization := by
  obtain ⟨hspec, ht, rfl, hbool, hreached, ⟨q, hq, hfriend⟩, hp⟩ := h
  have hmerged : (w.insert b b p).find? b b = some (.strongest (some q) p) := by
    rw [WitnessSet.find?_insert, if_pos rfl, hq]
  have hlost := (WitnessProperties.isFriend_strongest hfriend p).trans hp
  constructor
  · have hge := level_le_searchWitness_of_reached ht hbool hreached hq
      (.friendFunction rfl rfl hfriend)
    have hle := level_searchWitness_le_of_specialization (u := u) (w := w) hspec
    exact RelationVerdict.eq_friendFunction_of_level (Nat.le_antisymm hle hge)
  · have hge := level_le_searchWitness_of_reached ht hbool hreached hmerged (.specialization hspec)
    refine RelationVerdict.eq_templateSpecialization_of_level (Nat.le_antisymm ?_ hge)
    rw [level_searchWitness_le_iff]
    intro place v h
    rcases h.level_of_specialization hspec with hlow | ⟨_, ty, r, hty, hr, hrfriend⟩
    · exact hlow
    · cases ht.symm.trans hty
      cases hmerged.symm.trans hr
      rw [hlost] at hrfriend
      cases hrfriend

/-- An insertion displaces a friend, and the verdict sinks from the friend to the specialization, or
it displaces none, and the rank of the verdict does not sink. -/
theorem searchWitness_insert (u : SourceUnit) (w : WitnessSet) (d : Decl) (a b : TypeKey)
    (p : WitnessProperties) :
    (Displaces u w d a b p ∧ u.searchWitness w d = .friendFunction ∧
      u.searchWitness (w.insert a b p) d = .templateSpecialization) ∨
    (¬Displaces u w d a b p ∧
      (u.searchWitness w d).level ≤ (u.searchWitness (w.insert a b p) d).level) := by
  by_cases h : Displaces u w d a b p
  · exact .inl ⟨h, h.searchWitness_eq⟩
  · exact .inr ⟨h, level_le_searchWitness_insert h⟩

/-- A specialization of a template. -/
def ranges : SourceUnit where
  decls := [⟨⟨0⟩, "Range<int>", none, true,
    .record ⟨"Range<int>", [], [], some ⟨"Range", "Range<T>", ["int"]⟩⟩⟩]
  types := OrderedMap.ofList
    [("int", .builtin .integer), ("Range<T>", .dependent), ("Range<int>", .record ⟨0⟩)]
  wellFormed := WellFormed.fault?_eq_none_iff.1 (by decide)

/-- A direct witness after a friend takes the rank of the specialization down. -/
theorem ranges_lose_friend :
    ranges.searchWitness (.ofList [("Range<int>", "Range<int>", ⟨true, false⟩)])
        ranges.decls[0] = .friendFunction ∧
      ranges.searchWitness (.ofList [("Range<int>", "Range<int>", ⟨true, false⟩),
        ("Range<int>", "Range<int>", ⟨false, false⟩)]) ranges.decls[0] = .templateSpecialization ∧
      RelationVerdict.templateSpecialization.level < RelationVerdict.friendFunction.level := by
  have hdefines : ranges.Defines ranges.decls[0] := rfl
  have hlost : Displaces ranges (.ofList [("Range<int>", "Range<int>", ⟨true, false⟩)])
      ranges.decls[0] "Range<int>" "Range<int>" ⟨false, false⟩ :=
    { isSpecialization := rfl
      own := rfl
      same := rfl
      notBool := by decide
      reached := hdefines.tagType_mem_conversionClosure rfl _
      friend := ⟨⟨true, false⟩, by decide, rfl⟩
      notFriend := rfl }
  obtain ⟨hbefore, hafter⟩ := hlost.searchWitness_eq
  exact ⟨hbefore, hafter, by decide⟩

end SourceUnit

end InteropWitness

import InteropWitness.Proofs.OrderedMap
import InteropWitness.Relation.Search
import Mathlib.Data.Finset.Card
import Mathlib.Data.String.Basic
import Mathlib.Data.Sym.Sym2

namespace InteropWitness

namespace WitnessProperties

/-- Of the properties of a witness that was there before, if any, and of a new one, those that
stay. -/
def strongest (old : Option WitnessProperties) (new : WitnessProperties) : WitnessProperties :=
  match old with
  | some q => if q.weight < new.weight then new else q
  | none => new

theorem weight_injective {p q : WitnessProperties} (h : p.weight = q.weight) : p = q := by
  obtain ⟨pf, pl⟩ := p
  obtain ⟨qf, ql⟩ := q
  cases pf <;> cases pl <;> cases qf <;> cases ql <;> simp_all [weight]

theorem eq_direct {p : WitnessProperties} (hfriend : p.isFriend = false)
    (hlate : p.isLateInline = false) : p = ⟨false, false⟩ := by
  cases p
  cases hfriend
  cases hlate
  rfl

theorem weight_le_direct (p : WitnessProperties) : p.weight ≤ weight ⟨false, false⟩ := by
  obtain ⟨f, l⟩ := p
  cases f <;> cases l <;> decide

theorem strongest_cases (old : Option WitnessProperties) (new : WitnessProperties) :
    old = some (strongest old new) ∨ new = strongest old new := by
  cases old with
  | none => exact Or.inr rfl
  | some q =>
    simp only [strongest]
    split
    · exact Or.inr rfl
    · exact Or.inl rfl

theorem weight_new_le_strongest (old : Option WitnessProperties) (new : WitnessProperties) :
    new.weight ≤ (strongest old new).weight := by
  cases old with
  | none => exact Nat.le_refl _
  | some q =>
    simp only [strongest]
    split <;> omega

theorem weight_old_le_strongest (q new : WitnessProperties) :
    q.weight ≤ (strongest (some q) new).weight := by
  simp only [strongest]
  split <;> omega

end WitnessProperties

namespace WitnessSet

theorem pair_comm (a b : TypeKey) : pair a b = pair b a := by
  rcases lt_trichotomy a b with h | h | h
  · rw [pair, pair, if_neg (lt_asymm h), if_pos h]
  · rw [h]
  · rw [pair, pair, if_pos h, if_neg (lt_asymm h)]

theorem mk_pair (a b : TypeKey) : s((pair a b).1, (pair a b).2) = s(a, b) := by
  unfold pair
  split
  · exact Sym2.eq_swap
  · rfl

/-- The stored form of a pair forgets the order and nothing else. -/
theorem pair_eq_pair_iff {a b c d : TypeKey} : pair a b = pair c d ↔ s(a, b) = s(c, d) := by
  constructor
  · intro h
    rw [← mk_pair a b, h, mk_pair]
  · intro h
    rcases Sym2.eq_iff.1 h with ⟨rfl, rfl⟩ | ⟨rfl, rfl⟩
    · rfl
    · exact pair_comm _ _

theorem find?_comm (w : WitnessSet) (a b : TypeKey) : w.find? a b = w.find? b a := by
  rw [find?, find?, pair_comm]

@[simp] theorem find?_empty (a b : TypeKey) : find? .empty a b = none := rfl

theorem find?_assign (w : WitnessSet) (a b c d : TypeKey) (p : WitnessProperties) :
    find? (w.assign (pair a b) p) c d = if s(c, d) = s(a, b) then some p else w.find? c d := by
  rw [find?, OrderedMap.get?_assign]
  simp only [pair_eq_pair_iff, find?]

/-- Inserting a witness keeps the strongest one of its pair and touches no other pair. -/
theorem find?_insert (w : WitnessSet) (a b c d : TypeKey) (p : WitnessProperties) :
    (w.insert a b p).find? c d =
      if s(c, d) = s(a, b) then some (.strongest (w.find? a b) p) else w.find? c d := by
  have hsame (h : s(c, d) = s(a, b)) : w.find? c d = w.find? a b := by
    rw [find?, find?, pair_eq_pair_iff.2 h]
  unfold insert
  cases hq : w.find? a b with
  | none => exact find?_assign w a b c d p
  | some q =>
    by_cases hlt : q.weight < p.weight
    · simp [WitnessProperties.strongest, hlt, find?_assign]
    · simp only [WitnessProperties.strongest, hlt, if_false]
      split
      · next h => rw [hsame h, hq]
      · rfl

/-- The set that results from inserting witnesses one after the other. -/
def ofList (witnesses : List (TypeKey × TypeKey × WitnessProperties)) : WitnessSet :=
  witnesses.foldl (fun w e => w.insert e.1 e.2.1 e.2.2) .empty

theorem isSome_find?_foldl_insert (witnesses : List (TypeKey × TypeKey × WitnessProperties))
    (w : WitnessSet) (a b : TypeKey) :
    ((witnesses.foldl (fun w e => w.insert e.1 e.2.1 e.2.2) w).find? a b).isSome ↔
      (w.find? a b).isSome ∨ ∃ e ∈ witnesses, s(a, b) = s(e.1, e.2.1) := by
  induction witnesses generalizing w with
  | nil => simp
  | cons e rest ih =>
    rw [List.foldl_cons, ih, find?_insert, List.exists_mem_cons_iff]
    by_cases h : s(a, b) = s(e.1, e.2.1)
    · simp only [h, if_true, Option.isSome_some, true_or, or_true]
    · simp only [h, if_false, false_or]

theorem isSome_find?_ofList {witnesses : List (TypeKey × TypeKey × WitnessProperties)}
    {a b : TypeKey} :
    ((ofList witnesses).find? a b).isSome ↔ ∃ e ∈ witnesses, s(a, b) = s(e.1, e.2.1) := by
  rw [ofList, isSome_find?_foldl_insert]
  simp

/-- A witness with the properties `p` is inserted for the unordered pair. -/
def Recorded (witnesses : List (TypeKey × TypeKey × WitnessProperties)) (a b : TypeKey)
    (p : WitnessProperties) : Prop :=
  ∃ e ∈ witnesses, s(a, b) = s(e.1, e.2.1) ∧ e.2.2 = p

theorem recorded_flatMap_iff {ι : Type} {sources : List ι}
    {inserted : ι → List (TypeKey × TypeKey × WitnessProperties)} {a b : TypeKey}
    {p : WitnessProperties} :
    Recorded (sources.flatMap inserted) a b p ↔ ∃ i ∈ sources, Recorded (inserted i) a b p := by
  simp only [Recorded, List.mem_flatMap]
  constructor
  · rintro ⟨e, ⟨i, hi, he⟩, h⟩
    exact ⟨i, hi, e, he, h⟩
  · rintro ⟨i, hi, e, he, h⟩
    exact ⟨e, ⟨i, hi, he⟩, h⟩

/-- `p` is the strongest among the properties that `Has` holds of. -/
def Strongest (Has : WitnessProperties → Prop) (p : WitnessProperties) : Prop :=
  Has p ∧ ∀ q, Has q → q.weight ≤ p.weight

/-- Of two witnesses it makes no difference to the strongest one whether they are merged before. -/
theorem strongest_merge_iff {Has : WitnessProperties → Prop} {old : Option WitnessProperties}
    {new p : WitnessProperties} :
    Strongest (fun q => some (WitnessProperties.strongest old new) = some q ∨ Has q) p ↔
      Strongest (fun q => old = some q ∨ new = q ∨ Has q) p := by
  constructor
  · intro h
    obtain ⟨hp, hmax⟩ := h
    have hmerged := hmax _ (Or.inl rfl)
    refine ⟨?_, fun q hq => ?_⟩
    · rcases hp with hp | hp
      · cases hp
        rcases WitnessProperties.strongest_cases old new with h | h
        · exact Or.inl h
        · exact Or.inr (Or.inl h)
      · exact Or.inr (Or.inr hp)
    · rcases hq with rfl | rfl | hq
      · exact (WitnessProperties.weight_old_le_strongest q new).trans hmerged
      · exact (WitnessProperties.weight_new_le_strongest old new).trans hmerged
      · exact hmax q (Or.inr hq)
  · intro h
    obtain ⟨hp, hmax⟩ := h
    have hmerged : (WitnessProperties.strongest old new).weight ≤ p.weight := by
      rcases WitnessProperties.strongest_cases old new with h | h
      · exact hmax _ (Or.inl h)
      · exact hmax _ (Or.inr (Or.inl h))
    refine ⟨?_, fun q hq => ?_⟩
    · rcases hp with rfl | rfl | hp
      · have hle := WitnessProperties.weight_old_le_strongest p new
        rw [WitnessProperties.weight_injective (Nat.le_antisymm hmerged hle)]
        exact Or.inl rfl
      · have hle := WitnessProperties.weight_new_le_strongest old new
        rw [WitnessProperties.weight_injective (Nat.le_antisymm hmerged hle)]
        exact Or.inl rfl
      · exact Or.inr hp
    · rcases hq with hq | hq
      · cases hq
        exact hmerged
      · exact hmax q (Or.inr (Or.inr hq))

theorem find?_foldl_insert_eq_some_iff
    {witnesses : List (TypeKey × TypeKey × WitnessProperties)} {w : WitnessSet} {a b : TypeKey}
    {p : WitnessProperties} :
    (witnesses.foldl (fun w e => w.insert e.1 e.2.1 e.2.2) w).find? a b = some p ↔
      Strongest (fun q => w.find? a b = some q ∨ Recorded witnesses a b q) p := by
  induction witnesses generalizing w with
  | nil =>
    simp only [List.foldl_nil, Recorded, List.not_mem_nil, false_and, exists_false, or_false,
      Strongest]
    constructor
    · intro h
      refine ⟨h, fun q hq => ?_⟩
      rw [h] at hq
      cases hq
      exact Nat.le_refl _
    · exact And.left
  | cons e rest ih =>
    rw [List.foldl_cons, ih, find?_insert]
    simp only [Recorded, List.exists_mem_cons_iff]
    by_cases h : s(a, b) = s(e.1, e.2.1)
    · have hsame : w.find? a b = w.find? e.1 e.2.1 := by
        rw [find?, find?, pair_eq_pair_iff.2 h]
      simp only [h, if_true, true_and, hsame]
      exact strongest_merge_iff
    · simp only [h, if_false, false_and, false_or]

/-- A pair is found with the strongest of the witnesses that were inserted for it. -/
theorem find?_ofList_eq_some_iff {witnesses : List (TypeKey × TypeKey × WitnessProperties)}
    {a b : TypeKey} {p : WitnessProperties} :
    (ofList witnesses).find? a b = some p ↔ Strongest (Recorded witnesses a b) p := by
  rw [ofList, find?_foldl_insert_eq_some_iff]
  simp only [find?_empty, reduceCtorEq, false_or]

theorem find?_ofList_of_recorded
    {witnesses witnesses' : List (TypeKey × TypeKey × WitnessProperties)} {a b : TypeKey}
    (h : ∀ p, Recorded witnesses a b p ↔ Recorded witnesses' a b p) :
    (ofList witnesses).find? a b = (ofList witnesses').find? a b := by
  have hrecorded : Recorded witnesses a b = Recorded witnesses' a b := funext fun p => propext (h p)
  ext p
  rw [find?_ofList_eq_some_iff, find?_ofList_eq_some_iff, hrecorded]

theorem find?_ofList_congr {witnesses witnesses' : List (TypeKey × TypeKey × WitnessProperties)}
    (h : ∀ e, e ∈ witnesses ↔ e ∈ witnesses') (a b : TypeKey) :
    (ofList witnesses).find? a b = (ofList witnesses').find? a b :=
  find?_ofList_of_recorded fun p => by simp only [Recorded, h]

/-- Nothing is stronger than a direct witness, so one of them is enough. -/
theorem find?_ofList_eq_direct_iff {witnesses : List (TypeKey × TypeKey × WitnessProperties)}
    {a b : TypeKey} :
    (ofList witnesses).find? a b = some ⟨false, false⟩ ↔
      Recorded witnesses a b ⟨false, false⟩ := by
  rw [find?_ofList_eq_some_iff]
  exact ⟨And.left, fun h => ⟨h, fun q _ => q.weight_le_direct⟩⟩

end WitnessSet

namespace WitnessProperties

variable {p q : WitnessProperties}

/-- How directly a witness is declared, where a friend is a friend in whatever way it is inlined. -/
def strength (p : WitnessProperties) : Nat :=
  if p.isFriend then 0 else if p.isLateInline then 1 else 2

/-- Witnesses are compared by strength, and friends of one strength by whether they are inlined
late. -/
theorem order_eq_then (p q : WitnessProperties) :
    p.order q =
      (compare p.strength q.strength).then (compare p.isLateInline q.isLateInline) := by
  obtain ⟨pf, pl⟩ := p
  obtain ⟨qf, ql⟩ := q
  cases pf <;> cases pl <;> cases qf <;> cases ql <;> rfl

theorem isLE_order_iff : (p.order q).isLE = true ↔ p.weight ≤ q.weight := Nat.isLE_compare

instance : Std.TransCmp order where
  eq_swap := Nat.compare_swap _ _ |>.symm
  isLE_trans hpq hqr := by
    rw [isLE_order_iff] at hpq hqr ⊢
    exact hpq.trans hqr

instance : Std.LawfulEqCmp order where
  compare_self := Nat.compare_eq_eq.2 rfl
  eq_of_compare h := weight_injective (Nat.compare_eq_eq.1 h)

end WitnessProperties

namespace WitnessSet

variable {inserts others : List (TypeKey × TypeKey × WitnessProperties)}

theorem mem_keys_insert {w : WitnessSet} {a b : TypeKey} {p : WitnessProperties}
    {k : TypeKey × TypeKey} : k ∈ (w.insert a b p).keys ↔ k = pair a b ∨ k ∈ w.keys := by
  unfold insert find?
  cases hq : w.get? (pair a b) with
  | none => exact OrderedMap.mem_keys_assign
  | some q =>
    simp only
    split
    · exact OrderedMap.mem_keys_assign
    · exact (or_iff_right_of_imp fun h => h ▸ OrderedMap.mem_keys_of_get? hq).symm

theorem mem_keys_ofList {k : TypeKey × TypeKey} :
    k ∈ (ofList inserts).keys ↔ ∃ e ∈ inserts, pair e.1 e.2.1 = k := by
  have hfold : ∀ w : WitnessSet,
      k ∈ (inserts.foldl (fun w e => w.insert e.1 e.2.1 e.2.2) w).keys ↔
        (∃ e ∈ inserts, pair e.1 e.2.1 = k) ∨ k ∈ w.keys := by
    induction inserts with
    | nil => simp
    | cons e rest ih =>
      intro w
      rw [List.foldl_cons, ih, mem_keys_insert, List.exists_mem_cons_iff, eq_comm, or_left_comm,
        or_assoc]
  rw [ofList, hfold]
  exact or_iff_left List.not_mem_nil

theorem size_ofList (inserts : List (TypeKey × TypeKey × WitnessProperties)) :
    (ofList inserts).size = (inserts.map fun e => s(e.1, e.2.1)).toFinset.card := by
  have hnodup : ((ofList inserts).keys.map fun k => s(k.1, k.2)).Nodup := by
    refine (OrderedMap.nodup_keys _).map_on fun k hk l hl hsame => ?_
    obtain ⟨e, _, rfl⟩ := mem_keys_ofList.1 hk
    obtain ⟨f, _, rfl⟩ := mem_keys_ofList.1 hl
    rw [mk_pair, mk_pair] at hsame
    exact pair_eq_pair_iff.2 hsame
  have hpairs : ((ofList inserts).keys.map fun k => s(k.1, k.2)).toFinset =
      (inserts.map fun e => s(e.1, e.2.1)).toFinset := by
    ext z
    simp only [List.mem_toFinset, List.mem_map, mem_keys_ofList]
    constructor
    · rintro ⟨_, ⟨e, he, rfl⟩, rfl⟩
      exact ⟨e, he, (mk_pair e.1 e.2.1).symm⟩
    · rintro ⟨e, he, rfl⟩
      exact ⟨_, ⟨e, he, rfl⟩, mk_pair e.1 e.2.1⟩
  calc (ofList inserts).size
      = ((ofList inserts).keys.map fun k => s(k.1, k.2)).length := by
        simp [OrderedMap.size, OrderedMap.keys]
    _ = ((ofList inserts).keys.map fun k => s(k.1, k.2)).toFinset.card :=
        (List.toFinset_card_of_nodup hnodup).symm
    _ = (inserts.map fun e => s(e.1, e.2.1)).toFinset.card := by rw [hpairs]

theorem size_ofList_congr (h : ∀ e, e ∈ others ↔ e ∈ inserts) :
    (ofList others).size = (ofList inserts).size := by
  rw [size_ofList, size_ofList]
  congr 1
  ext z
  simp [h]

/-- For every sequence of insertions. The properties are totally ordered, by strength and then by
late inlining. A pair is looked up in either order with the same answer: none if the unordered pair
was never inserted, and else the greatest of the properties that it was inserted with. The size is
the number of different unordered pairs, and sequences of the same insertions, in whatever order and
however often repeated, give the same answers and the same size. -/
theorem ofList_is_greatest (inserts : List (TypeKey × TypeKey × WitnessProperties)) :
    Std.TransCmp WitnessProperties.order ∧ Std.LawfulEqCmp WitnessProperties.order ∧
      (∀ p q : WitnessProperties, p.order q =
        (compare p.strength q.strength).then (compare p.isLateInline q.isLateInline)) ∧
      (∀ a b, (ofList inserts).find? a b = (ofList inserts).find? b a ∧
        ((ofList inserts).find? a b = none ↔ ∀ e ∈ inserts, s(e.1, e.2.1) ≠ s(a, b)) ∧
        ∀ p, (ofList inserts).find? a b = some p ↔
          Recorded inserts a b p ∧ ∀ q, Recorded inserts a b q → (q.order p).isLE = true) ∧
      (ofList inserts).size = (inserts.map fun e => s(e.1, e.2.1)).toFinset.card ∧
      ∀ others : List (TypeKey × TypeKey × WitnessProperties), (∀ e, e ∈ others ↔ e ∈ inserts) →
        (∀ a b, (ofList others).find? a b = (ofList inserts).find? a b) ∧
          (ofList others).size = (ofList inserts).size := by
  refine ⟨inferInstance, inferInstance, WitnessProperties.order_eq_then,
    fun a b => ⟨find?_comm _ a b, ?_, fun p => ?_⟩, size_ofList inserts,
    fun others h => ⟨find?_ofList_congr h, size_ofList_congr h⟩⟩
  · rw [← Option.not_isSome_iff_eq_none, isSome_find?_ofList]
    simp only [not_exists, not_and, ne_eq, eq_comm]
  · rw [find?_ofList_eq_some_iff, Strongest]
    simp only [WitnessProperties.isLE_order_iff]

end WitnessSet

end InteropWitness

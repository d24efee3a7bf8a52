import InteropWitness.Relation.Search
import Mathlib.Data.List.Basic
import Mathlib.Data.Prod.Lex

namespace InteropWitness

section Listing

variable {κ ι β γ : Type} {before : κ → κ → Prop} {inner : ι → ι → Prop}

/-- The list holds what stands at the places that `At` fills, in the order of these places. -/
def ListedBy (before : κ → κ → Prop) (At : κ → β → Prop) (l : List β) : Prop :=
  ∃ placed : List (κ × β), placed.map Prod.snd = l ∧
    placed.Pairwise (fun a b => before a.1 b.1) ∧ ∀ k v, (k, v) ∈ placed ↔ At k v

variable {At : κ → β → Prop} {l : List β}

theorem ListedBy.mem_iff (h : ListedBy before At l) {v : β} : v ∈ l ↔ ∃ k, At k v := by
  obtain ⟨placed, rfl, _, hmem⟩ := h
  simp [hmem]

theorem ListedBy.congr {At' : κ → β → Prop} (h : ListedBy before At l)
    (hAt : ∀ k v, At k v ↔ At' k v) : ListedBy before At' l := by
  obtain ⟨placed, hplaced, hsorted, hmem⟩ := h
  exact ⟨placed, hplaced, hsorted, fun k v => (hmem k v).trans (hAt k v)⟩

theorem listedBy_if (before : κ → κ → Prop) (c : Prop) [Decidable c] (k : κ) (v : β) :
    ListedBy before (fun k' v' => c ∧ k' = k ∧ v' = v) (if c then [v] else []) := by
  refine ⟨if c then [(k, v)] else [], ?_, ?_, fun k' v' => ?_⟩
  · split <;> rfl
  · split <;> simp
  · split <;> simp [*]

theorem listedBy_getElem? (xs : List β) :
    ListedBy (· < ·) (fun (i : Nat) v => xs[i]? = some v) xs := by
  induction xs with
  | nil => exact ⟨[], rfl, List.Pairwise.nil, by simp⟩
  | cons x rest ih =>
    obtain ⟨placed, hplaced, hsorted, hmem⟩ := ih
    refine ⟨(0, x) :: placed.map fun e => (e.1 + 1, e.2), ?_, ?_, fun i v => ?_⟩
    · rw [List.map_cons, List.map_map, ← hplaced]
      rfl
    · refine List.pairwise_cons.2 ⟨fun e he => ?_, ?_⟩
      · obtain ⟨_, _, rfl⟩ := List.mem_map.1 he
        exact Nat.succ_pos _
      · exact List.pairwise_map.2 (hsorted.imp fun hlt => Nat.succ_lt_succ hlt)
    · cases i with
      | zero => simp [eq_comm]
      | succ i => simp [hmem]

theorem ListedBy.map (h : ListedBy before At l) (before' : ι → ι → Prop) (place : κ → ι)
    (f : β → γ) (hplace : ∀ {k k'}, before k k' → before' (place k) (place k')) :
    ListedBy before' (fun i c => ∃ k v, At k v ∧ place k = i ∧ f v = c) (l.map f) := by
  obtain ⟨placed, rfl, hsorted, hmem⟩ := h
  refine ⟨placed.map fun e => (place e.1, f e.2), ?_, ?_, fun i c => ?_⟩
  · rw [List.map_map, List.map_map]
    rfl
  · exact List.pairwise_map.2 (hsorted.imp fun hlt => hplace hlt)
  · simp only [List.mem_map, Prod.exists, hmem, Prod.mk.injEq]

theorem ListedBy.append {At' : κ → β → Prop} {l' : List β} (h : ListedBy before At l)
    (h' : ListedBy before At' l') (hlt : ∀ {k v k' v'}, At k v → At' k' v' → before k k') :
    ListedBy before (fun k v => At k v ∨ At' k v) (l ++ l') := by
  obtain ⟨placed, rfl, hsorted, hmem⟩ := h
  obtain ⟨placed', rfl, hsorted', hmem'⟩ := h'
  refine ⟨placed ++ placed', List.map_append, ?_, fun k v => by rw [List.mem_append, hmem, hmem']⟩
  exact List.pairwise_append.2 ⟨hsorted, hsorted', fun e he e' he' =>
    hlt ((hmem _ _).1 he) ((hmem' _ _).1 he')⟩

/-- Lists put in the place of the elements of a list: the places are those of the element and,
within its list, of what is there. -/
theorem ListedBy.flatMap {Within : β → ι → γ → Prop} {f : β → List γ}
    (h : ListedBy before At l) (hf : ∀ b, ListedBy inner (Within b) (f b)) :
    ListedBy (Prod.Lex before inner) (fun k v => ∃ b, At k.1 b ∧ Within b k.2 v) (l.flatMap f) := by
  obtain ⟨placed, rfl, hsorted, hmem⟩ := h
  choose g hg hgsorted hgmem using hf
  refine ⟨placed.flatMap fun e => (g e.2).map fun e' => ((e.1, e'.1), e'.2), ?_, ?_, ?_⟩
  · simp only [List.map_flatMap, List.map_map, List.flatMap_map, ← hg]
    rfl
  · refine List.pairwise_flatMap.2 ⟨fun e _ => ?_, hsorted.imp fun {a b} hab x hx y hy => ?_⟩
    · exact List.pairwise_map.2 ((hgsorted e.2).imp fun {a b} hlt =>
        show Prod.Lex before inner (e.1, a.1) (e.1, b.1) from Prod.Lex.right e.1 hlt)
    · obtain ⟨_, _, rfl⟩ := List.mem_map.1 hx
      obtain ⟨_, _, rfl⟩ := List.mem_map.1 hy
      exact Prod.Lex.left _ _ hab
  · intro k v
    obtain ⟨k, i⟩ := k
    simp only [List.mem_flatMap, List.mem_map, Prod.exists, Prod.mk.injEq, hgmem, hmem]
    constructor
    · intro h
      obtain ⟨_, b, hb, _, _, hv, ⟨rfl, rfl⟩, rfl⟩ := h
      exact ⟨b, hb, hv⟩
    · intro h
      obtain ⟨b, hb, hv⟩ := h
      exact ⟨k, b, hb, i, v, hv, ⟨rfl, rfl⟩, rfl⟩

/-- Where a list is split at one of its elements, what is before it stands at places before its
own, and what is after it at places after its own. -/
theorem ListedBy.split {pre post : List β} {v : β} (h : ListedBy before At (pre ++ v :: post)) :
    ∃ k, At k v ∧ ∀ k' v', At k' v' →
      (v' ∈ pre ∧ before k' k) ∨ (k' = k ∧ v' = v) ∨ (v' ∈ post ∧ before k k') := by
  obtain ⟨placed, hplaced, hsorted, hmem⟩ := h
  obtain ⟨placedPre, rest, rfl, rfl, hrest⟩ := List.map_eq_append_iff.1 hplaced
  obtain ⟨⟨k, _⟩, placedPost, rfl, rfl, rfl⟩ := List.map_eq_cons_iff.1 hrest
  obtain ⟨-, hpost, hpre⟩ := List.pairwise_append.1 hsorted
  refine ⟨k, (hmem _ _).1 (by simp), fun k' v' h' => ?_⟩
  rcases List.mem_append.1 ((hmem k' v').2 h') with h' | h'
  · exact .inl ⟨List.mem_map_of_mem h', hpre _ h' _ List.mem_cons_self⟩
  rcases List.mem_cons.1 h' with h' | h'
  · cases h'
    exact .inr (.inl ⟨rfl, rfl⟩)
  · exact .inr (.inr ⟨List.mem_map_of_mem h', (List.pairwise_cons.1 hpost).1 _ h'⟩)

/-- The pairs of a list stand in the order of the indices of their first element, then of their
second. -/
theorem pairs_listedBy (xs : List β) :
    ListedBy (Prod.Lex (· < ·) (· < ·))
      (fun (k : Nat × Nat) e => k.1 ≤ k.2 ∧ xs[k.1]? = some e.1 ∧ xs[k.2]? = some e.2)
      (pairs xs) := by
  induction xs with
  | nil => exact ⟨[], rfl, List.Pairwise.nil, by simp⟩
  | cons x rest ih =>
    have hrow := (listedBy_getElem? (x :: rest)).map (Prod.Lex (· < ·) (· < ·))
      (fun j => (0, j)) (fun y => (x, y)) (fun hlt => Prod.Lex.right 0 hlt)
    have hrest := ih.map (Prod.Lex (· < ·) (· < ·)) (fun k => (k.1 + 1, k.2 + 1)) id (fun hlt => by
      rw [Prod.lex_def] at hlt ⊢
      simp only at hlt ⊢
      omega)
    rw [List.map_id] at hrest
    refine (hrow.append hrest ?_).congr ?_
    · rintro _ _ _ _ ⟨_, _, _, rfl, rfl⟩ ⟨_, _, _, rfl, rfl⟩
      exact Prod.Lex.left _ _ (Nat.succ_pos _)
    · intro k e
      obtain ⟨i, j⟩ := k
      cases i with
      | zero =>
        constructor
        · rintro (⟨j', y, hy, hk, rfl⟩ | ⟨k, e', _, hk, _⟩)
          · cases hk
            exact ⟨Nat.zero_le _, rfl, hy⟩
          · cases hk
        · intro h
          obtain ⟨_, hx, hy⟩ := h
          exact Or.inl ⟨j, e.2, hy, rfl, by rw [Option.some.inj hx]⟩
      | succ i =>
        constructor
        · rintro (⟨_, _, _, hk, _⟩ | ⟨k, e', ⟨hle, hx, hy⟩, hk, rfl⟩)
          · cases hk
          · cases hk
            exact ⟨Nat.succ_le_succ hle, hx, hy⟩
        · intro h
          obtain ⟨hle, hx, hy⟩ := h
          cases j with
          | zero => exact absurd hle (Nat.not_succ_le_zero i)
          | succ j => exact Or.inr ⟨(i, j), e, ⟨Nat.le_of_succ_le_succ hle, hx, hy⟩, rfl, rfl⟩

end Listing

/-- What a witness over `first` and `second` proposes for a declaration of the type `this`, and in
which turn: that it is a specialization comes first. -/
@[mk_iff]
inductive WitnessProposes (this : TypeKey) (isSpecialization : Bool) (p : WitnessProperties)
    (first second : TypeKey) : Nat → RelationVerdict → Prop
  | specialization (h : isSpecialization = true) :
      WitnessProposes this isSpecialization p first second 0 .templateSpecialization
  | differentTypes (h : first ≠ this ∨ second ≠ this) :
      WitnessProposes this isSpecialization p first second 1 (.differentTypes first second)
  | friendFunction (hf : first = this) (hs : second = this) (h : p.isFriend = true) :
      WitnessProposes this isSpecialization p first second 1 .friendFunction
  | lateInlineMethod (hf : first = this) (hs : second = this) (hspec : isSpecialization = false)
      (hfriend : p.isFriend = false) (h : p.isLateInline = true) :
      WitnessProposes this isSpecialization p first second 1 .lateInlineMethod
  | foundByConsumer (hf : first = this) (hs : second = this) (hspec : isSpecialization = false)
      (hfriend : p.isFriend = false) (h : p.isLateInline = false) :
      WitnessProposes this isSpecialization p first second 1 .foundByConsumer

theorem witnessProposals_listedBy (this : TypeKey) (isSpecialization : Bool)
    (p : WitnessProperties) (first second : TypeKey) :
    ListedBy (· < ·) (WitnessProposes this isSpecialization p first second)
      (witnessProposals this isSpecialization p first second) := by
  refine ⟨(witnessProposals this isSpecialization p first second).map fun v =>
    (if v = .templateSpecialization then 0 else 1, v), ?_, ?_, fun turn v => ?_⟩
  · simp [Function.comp_def]
  · unfold witnessProposals
    split_ifs <;> simp
  · rw [witnessProposes_iff]
    unfold witnessProposals
    split_ifs <;> grind

namespace SourceUnit

/-- What a pair of types proposes. Where there is a witness, it comes before the comparison of
builtin numbers. -/
@[mk_iff]
inductive PairProposes (u : SourceUnit) (w : WitnessSet) (this : TypeKey) (isSpecialization : Bool)
    (first second : TypeKey) : Nat → RelationVerdict → Prop
  | witness {p : WitnessProperties} {turn : Nat} {v : RelationVerdict}
      (hw : w.find? first second = some p)
      (h : WitnessProposes this isSpecialization p first second turn v) :
      PairProposes u w this isSpecialization first second turn v
  | arithmetic (hf : u.isArithmetic first = true) (hs : u.isArithmetic second = true) :
      PairProposes u w this isSpecialization first second 2 (.differentTypes first second)

theorem pairProposals_listedBy (u : SourceUnit) (w : WitnessSet) (this : TypeKey)
    (isSpecialization : Bool) (pair : TypeKey × TypeKey) :
    ListedBy (· < ·)
      (fun turn v => (u.isBool pair.1 = false ∧ u.isBool pair.2 = false) ∧
        PairProposes u w this isSpecialization pair.1 pair.2 turn v)
      (u.pairProposals w this isSpecialization pair) := by
  obtain ⟨first, second⟩ := pair
  unfold pairProposals
  simp only
  by_cases hbool : (u.isBool first || u.isBool second) = true
  · rw [if_pos hbool]
    refine ⟨[], rfl, List.Pairwise.nil, fun turn v => ?_⟩
    rcases Bool.or_eq_true_iff.1 hbool with h | h <;> simp [h]
  rw [if_neg hbool]
  obtain hbool := Bool.or_eq_false_iff.1 (Bool.eq_false_iff.2 hbool)
  have harithmetic := listedBy_if (· < ·)
    ((u.isArithmetic first && u.isArithmetic second) = true) 2
    (RelationVerdict.differentTypes first second)
  cases hw : w.find? first second with
  | none =>
    refine harithmetic.congr fun turn v => ?_
    rw [and_iff_right hbool, pairProposes_iff, hw, Bool.and_eq_true]
    simp [and_assoc]
  | some p =>
    have hwitness := witnessProposals_listedBy this isSpecialization p first second
    refine (hwitness.append harithmetic ?_).congr fun turn v => ?_
    · rintro _ _ _ _ h ⟨_, rfl, _⟩
      cases h <;> decide
    · rw [and_iff_right hbool, pairProposes_iff, hw, Bool.and_eq_true]
      simp [and_assoc]

/-- A verdict is proposed for a declaration at a place of the scan: two indices in the closure, the
least trustworthy conversions first, and the turn within what the pair there proposes. -/
def Proposed (u : SourceUnit) (w : WitnessSet) (d : Decl) (place : (Nat × Nat) × Nat)
    (v : RelationVerdict) : Prop :=
  ∃ this first second, d.tagType? = some this ∧ place.1.1 ≤ place.1.2 ∧
    (u.conversionClosure .selfTypeBeforeConversions d).reverse[place.1.1]? = some first ∧
    (u.conversionClosure .selfTypeBeforeConversions d).reverse[place.1.2]? = some second ∧
    u.isBool first = false ∧ u.isBool second = false ∧
    PairProposes u w this d.specialization?.isSome first second place.2 v

theorem Proposed.of_reached {u : SourceUnit} {w : WitnessSet} {d : Decl} {this ty : TypeKey}
    {p : WitnessProperties} {turn : Nat} {v : RelationVerdict} (ht : d.tagType? = some this)
    (hbool : u.isBool ty = false)
    (hreached : ty ∈ u.conversionClosure .selfTypeBeforeConversions d)
    (hw : w.find? ty ty = some p)
    (h : WitnessProposes this d.specialization?.isSome p ty ty turn v) :
    ∃ place, Proposed u w d place v := by
  obtain ⟨i, hi⟩ := List.mem_iff_getElem?.1 (List.mem_reverse.2 hreached)
  exact ⟨((i, i), turn), this, ty, ty, ht, Nat.le_refl i, hi, hi, hbool, hbool, .witness hw h⟩

/-- The order in which a search comes to its places. -/
abbrev Sooner : (Nat × Nat) × Nat → (Nat × Nat) × Nat → Prop :=
  Prod.Lex (Prod.Lex (· < ·) (· < ·)) (· < ·)

/-- The scan comes by exactly what is proposed, in the order of the places. -/
theorem proposals_listedBy (u : SourceUnit) (w : WitnessSet) (d : Decl) :
    ListedBy Sooner (Proposed u w d) (u.proposals w d) := by
  unfold proposals
  cases ht : d.tagType? with
  | none => exact ⟨[], rfl, List.Pairwise.nil, fun place v => by simp [Proposed, ht]⟩
  | some this =>
    refine ((pairs_listedBy _).flatMap
      (u.pairProposals_listedBy w this d.specialization?.isSome)).congr fun place v => ?_
    simp only [Proposed, ht, Prod.exists, Option.some.injEq]
    constructor
    · intro h
      obtain ⟨first, second, ⟨hle, hf, hs⟩, ⟨hbf, hbs⟩, h⟩ := h
      exact ⟨this, first, second, rfl, hle, hf, hs, hbf, hbs, h⟩
    · intro h
      obtain ⟨_, first, second, rfl, hle, hf, hs, hbf, hbs, h⟩ := h
      exact ⟨first, second, ⟨hle, hf, hs⟩, ⟨hbf, hbs⟩, h⟩

end SourceUnit

end InteropWitness

import InteropWitness.SourceUnit.Inheritance
import Mathlib.Data.List.Nodup
import Mathlib.Logic.Relation
import Mathlib.Order.Bounds.Defs

namespace InteropWitness

variable {α : Type} {next : α → List α}

/-- A path of `n` edges leads from `a` to the node. -/
inductive PathTo (r : α → α → Prop) (a : α) : Nat → α → Prop
  | start : PathTo r a 0 a
  | step {n : Nat} {b c : α} (h : PathTo r a n b) (hc : r b c) : PathTo r a (n + 1) c

theorem PathTo.head {r : α → α → Prop} {a b c : α} {n : Nat} (hb : r a b) (h : PathTo r b n c) :
    PathTo r a (n + 1) c := by
  induction h with
  | start => exact .step .start hb
  | step _ hc ih => exact .step ih hc

/-- `n` is the length of the shortest paths from `a` to `b`. -/
def Distance (r : α → α → Prop) (a b : α) (n : Nat) : Prop := IsLeast {n | PathTo r a n b} n

def Edge (next : α → List α) (a b : α) : Prop := b ∈ next a

/-- A path through nodes among `fresh` leads from the first node to the second. -/
inductive Enters (next : α → List α) (fresh : List α) : α → α → Prop
  | here {x : α} (hx : x ∈ fresh) : Enters next fresh x x
  | further {x y z : α} (hx : x ∈ fresh) (hy : y ∈ next x) (h : Enters next fresh y z) :
      Enters next fresh x z

namespace Enters

variable {fresh : List α} {x y z : α}

theorem mem (h : Enters next fresh x z) : x ∈ fresh := by
  cases h with
  | here hx => exact hx
  | further hx _ _ => exact hx

theorem mono {fresh' : List α} (hsub : fresh ⊆ fresh') (h : Enters next fresh x z) :
    Enters next fresh' x z := by
  induction h with
  | here hx => exact .here (hsub hx)
  | further hx hy _ ih => exact .further (hsub hx) hy ih

theorem iff_reflTransGen (hclosed : ∀ x ∈ fresh, ∀ y ∈ next x, y ∈ fresh) (hx : x ∈ fresh) :
    Enters next fresh x z ↔ Relation.ReflTransGen (Edge next) x z := by
  constructor
  · intro h
    clear hx
    induction h with
    | here _ => exact .refl
    | further _ hy _ ih => exact .head hy ih
  · intro h
    induction h using Relation.ReflTransGen.head_induction_on with
    | refl => exact .here hx
    | head hy _ ih => exact .further hx hy (ih (hclosed _ hx _ hy))

theorem exists_cons_of_not_mem {queue : List α} (hx : x ∉ fresh) :
    (∃ y ∈ x :: queue, Enters next fresh y z) ↔ ∃ y ∈ queue, Enters next fresh y z := by
  rw [List.exists_mem_cons_iff, or_iff_right]
  exact fun h => hx h.mem

variable [DecidableEq α]

/-- A path either avoids the node `x` or can be cut after its last visit to it. -/
theorem avoids_or_cut (h : Enters next fresh y z) (x : α) :
    (y ≠ x ∧ Enters next (fresh.erase x) y z) ∨ z = x ∨
      ∃ n ∈ next x, Enters next (fresh.erase x) n z := by
  induction h with
  | @here y hy =>
    by_cases heq : y = x
    · exact Or.inr (Or.inl heq)
    · exact Or.inl ⟨heq, .here ((List.mem_erase_of_ne heq).2 hy)⟩
  | @further y n z hy hn _ ih =>
    rcases ih with ⟨_, hrest⟩ | hcut
    · by_cases heq : y = x
      · subst heq
        exact Or.inr (Or.inr ⟨n, hn, hrest⟩)
      · exact Or.inl ⟨heq, .further ((List.mem_erase_of_ne heq).2 hy) hn hrest⟩
    · exact Or.inr hcut

/-- Entering a node puts its successors in its place. -/
theorem exists_cons_iff {queue : List α} (hx : x ∈ fresh) :
    (∃ y ∈ x :: queue, Enters next fresh y z) ↔
      z = x ∨ ∃ y ∈ queue ++ next x, Enters next (fresh.erase x) y z := by
  simp only [List.mem_append]
  constructor
  · intro h
    obtain ⟨y, hy, h⟩ := h
    rcases h.avoids_or_cut x with ⟨hne, hrest⟩ | hz | ⟨n, hn, hrest⟩
    · exact Or.inr ⟨y, Or.inl (List.mem_of_ne_of_mem hne hy), hrest⟩
    · exact Or.inl hz
    · exact Or.inr ⟨n, Or.inr hn, hrest⟩
  · intro h
    rcases h with rfl | ⟨y, hy | hy, hrest⟩
    · exact ⟨z, List.mem_cons_self, .here hx⟩
    · exact ⟨y, List.mem_cons_of_mem _ hy, hrest.mono List.erase_subset⟩
    · exact ⟨x, List.mem_cons_self, .further hx hy (hrest.mono List.erase_subset)⟩

end Enters

/-- Where a search from `a` stands while it enters the nodes at distance `k`: those of them that
wait are `front`, and behind them waits what has been met of the next level. -/
structure Frontier (next : α → List α) (a : α) (k : Nat) (front back fresh : List α) : Prop where
  nodup : fresh.Nodup
  front_near : ∀ x ∈ front, ∃ n ≤ k, PathTo (Edge next) a n x
  back_near : ∀ x ∈ back, ∃ n ≤ k + 1, PathTo (Edge next) a n x
  /-- All nearer nodes have been entered. -/
  passed : ∀ x ∈ fresh, ∀ n, PathTo (Edge next) a n x → k ≤ n
  waiting : ∀ x ∈ fresh, PathTo (Edge next) a k x → x ∈ front
  /-- The successors of a node that has been entered have been entered or wait. -/
  met : ∀ n x, PathTo (Edge next) a n x → x ∉ fresh → ∀ y ∈ next x, y ∈ fresh →
    y ∈ front ++ back

namespace Frontier

variable {a x : α} {k : Nat} {front back fresh : List α}

theorem start (hnodup : fresh.Nodup) (hfresh : ∀ n x, PathTo (Edge next) a n x → x ∈ fresh) :
    Frontier next a 0 [a] [] fresh where
  nodup := hnodup
  front_near x hx := by
    rw [List.mem_singleton.1 hx]
    exact ⟨0, Nat.le_refl 0, .start⟩
  back_near x hx := absurd hx List.not_mem_nil
  passed x _ n _ := Nat.zero_le n
  waiting x _ hpath := by
    cases hpath with
    | start => exact List.mem_singleton_self a
  met n x hpath hx := absurd (hfresh n x hpath) hx

theorem rise (h : Frontier next a k [] back fresh) : Frontier next a (k + 1) back [] fresh := by
  have hpassed : ∀ x ∈ fresh, ∀ n, PathTo (Edge next) a n x → k < n := by
    intro x hx n hpath
    refine Nat.lt_of_le_of_ne (h.passed x hx n hpath) ?_
    intro heq
    subst heq
    exact List.not_mem_nil (h.waiting x hx hpath)
  refine ⟨h.nodup, h.back_near, fun x hx => absurd hx List.not_mem_nil, hpassed, ?_, ?_⟩
  · intro y hy hpath
    cases hpath with
    | @step _ x _ hpath hyx =>
      have hx : x ∉ fresh := fun hx => Nat.lt_irrefl k (hpassed x hx k hpath)
      simpa using h.met k x hpath hx y hyx hy
  · simpa using h.met

/-- A level with somebody waiting is entered from the head of the queue. -/
theorem exists_cons {queue : List α} (h : Frontier next a k front back fresh)
    (hqueue : x :: queue = front ++ back) :
    ∃ k front back, Frontier next a k (x :: front) back fresh ∧ queue = front ++ back := by
  cases front with
  | nil =>
    rw [List.nil_append] at hqueue
    subst hqueue
    exact ⟨k + 1, queue, [], h.rise, (List.append_nil queue).symm⟩
  | cons y front =>
    rw [List.cons_append, List.cons.injEq] at hqueue
    obtain ⟨rfl, rfl⟩ := hqueue
    exact ⟨k, front, back, h, rfl⟩

theorem skip (h : Frontier next a k (x :: front) back fresh) (hx : x ∉ fresh) :
    Frontier next a k front back fresh := by
  have hne : ∀ y ∈ fresh, y ≠ x := fun y hy heq => hx (heq ▸ hy)
  refine ⟨h.nodup, fun y hy => h.front_near y (List.mem_cons_of_mem _ hy), h.back_near, h.passed,
    ?_, ?_⟩
  · intro y hy hpath
    exact List.mem_of_ne_of_mem (hne y hy) (h.waiting y hy hpath)
  · intro n z hpath hz y hyz hy
    exact List.mem_of_ne_of_mem (hne y hy) (h.met n z hpath hz y hyz hy)

theorem enter [DecidableEq α] (h : Frontier next a k (x :: front) back fresh) (hx : x ∈ fresh) :
    Frontier next a k front (back ++ next x) (fresh.erase x) := by
  obtain ⟨m, hm, hpath⟩ := h.front_near x List.mem_cons_self
  have hrest : ∀ y ∈ fresh.erase x, y ≠ x ∧ y ∈ fresh := fun y => (h.nodup.mem_erase_iff).1
  refine ⟨h.nodup.erase x, fun y hy => h.front_near y (List.mem_cons_of_mem _ hy), ?_, ?_, ?_, ?_⟩
  · intro y hy
    rcases List.mem_append.1 hy with hy | hy
    · exact h.back_near y hy
    · exact ⟨m + 1, Nat.succ_le_succ hm, hpath.step hy⟩
  · intro y hy
    exact h.passed y (hrest y hy).2
  · intro y hy hpath
    exact List.mem_of_ne_of_mem (hrest y hy).1 (h.waiting y (hrest y hy).2 hpath)
  · intro n z hpath hz y hyz hy
    by_cases heq : z = x
    · subst heq
      simp [hyz]
    · have hz' : z ∉ fresh := fun hmem => hz ((List.mem_erase_of_ne heq).2 hmem)
      have hmet : y ∈ x :: (front ++ back) := h.met n z hpath hz' y hyz (hrest y hy).2
      rw [← List.append_assoc]
      exact List.mem_append_left _ (List.mem_of_ne_of_mem (hrest y hy).1 hmet)

end Frontier

variable [DecidableEq α]

theorem mem_breadthFirst_iff {queue fresh : List α} {z : α} :
    z ∈ breadthFirst next queue fresh ↔ ∃ x ∈ queue, Enters next fresh x z := by
  fun_induction breadthFirst next queue fresh with
  | case1 => simp
  | case2 x queue fresh hx ih => rw [List.mem_cons, ih, Enters.exists_cons_iff hx]
  | case3 x queue fresh hx ih => rw [ih, Enters.exists_cons_of_not_mem hx]

theorem reaches_iff {sought : α → Bool} {stack fresh : List α} :
    reaches sought next stack fresh = true ↔
      ∃ z, sought z = true ∧ ∃ x ∈ stack, Enters next fresh x z := by
  fun_induction reaches sought next stack fresh with
  | case1 => simp
  | case2 x stack fresh hx ih =>
    simp only [Enters.exists_cons_iff hx, Bool.or_eq_true, ih, List.mem_append]
    constructor
    · intro h
      rcases h with h | ⟨z, hz, y, hy, hrest⟩
      · exact ⟨x, h, Or.inl rfl⟩
      · exact ⟨z, hz, Or.inr ⟨y, hy.symm, hrest⟩⟩
    · intro h
      obtain ⟨z, hz, rfl | ⟨y, hy, hrest⟩⟩ := h
      · exact Or.inl hz
      · exact Or.inr ⟨z, hz, y, hy.symm, hrest⟩
  | case3 x stack fresh hx ih => simp only [ih, Enters.exists_cons_of_not_mem hx]

theorem mem_fresh_of_mem_breadthFirst {queue fresh : List α} {x : α}
    (h : x ∈ breadthFirst next queue fresh) : x ∈ fresh := by
  fun_induction breadthFirst next queue fresh with
  | case1 => cases h
  | case2 y queue fresh hy ih =>
    rcases List.mem_cons.1 h with rfl | h
    · exact hy
    · exact List.mem_of_mem_erase (ih h)
  | case3 y queue fresh hy ih => exact ih h

theorem nodup_breadthFirst {queue fresh : List α} (hnodup : fresh.Nodup) :
    (breadthFirst next queue fresh).Nodup := by
  fun_induction breadthFirst next queue fresh with
  | case1 => exact List.nodup_nil
  | case2 x queue fresh hx ih =>
    refine List.nodup_cons.2 ⟨fun h => ?_, ih (hnodup.erase x)⟩
    exact hnodup.not_mem_erase (mem_fresh_of_mem_breadthFirst h)
  | case3 x queue fresh hx ih => exact ih hnodup

/-- One turn of a search in depth. The node on top of the stack is dropped if it may not be entered;
else, unless it is sought, its successors take its place. -/
inductive Turn (sought : α → Bool) (next : α → List α) :
    List α × List α → List α × List α → Prop
  | drop {x : α} {stack fresh : List α} (hx : x ∉ fresh) :
      Turn sought next (x :: stack, fresh) (stack, fresh)
  | enter {x : α} {stack fresh : List α} (hx : x ∈ fresh) (hother : sought x = false) :
      Turn sought next (x :: stack, fresh) (next x ++ stack, fresh.erase x)

/-- There are no more turns, and the search has come to its answer. -/
inductive Ends (sought : α → Bool) : List α × List α → Bool → Prop
  | exhausted {fresh : List α} : Ends sought ([], fresh) false
  | found {x : α} {stack fresh : List α} (hx : x ∈ fresh) (hsought : sought x = true) :
      Ends sought (x :: stack, fresh) true

/-- A search ends on every graph: a node puts its successors on the stack once at the most. -/
theorem exists_turns (sought : α → Bool) (next : α → List α) (stack fresh : List α) :
    ∃ n ≤ stack.length + (fresh.flatMap next).length, ∃ s,
      PathTo (Turn sought next) (stack, fresh) n s ∧
        Ends sought s (reaches sought next stack fresh) := by
  fun_induction reaches sought next stack fresh with
  | case1 fresh => exact ⟨0, Nat.zero_le _, _, .start, .exhausted⟩
  | case2 x stack fresh hx ih =>
    cases hsought : sought x with
    | true => exact ⟨0, Nat.zero_le _, _, .start, .found hx hsought⟩
    | false =>
      obtain ⟨n, hn, s, hturns, hends⟩ := ih
      have hweight : (fresh.flatMap next).length =
          (next x).length + ((fresh.erase x).flatMap next).length := by
        rw [((List.perm_cons_erase hx).flatMap_right next).length_eq, List.flatMap_cons,
          List.length_append]
      rw [List.length_append] at hn
      refine ⟨n + 1, ?_, s, hturns.head (.enter hx hsought), hends⟩
      rw [List.length_cons]
      omega
  | case3 x stack fresh hx ih =>
    obtain ⟨n, hn, s, hturns, hends⟩ := ih
    refine ⟨n + 1, ?_, s, hturns.head (.drop hx), hends⟩
    rw [List.length_cons]
    omega

theorem reaches_of_perm {sought : α → Bool} {stack fresh fresh' : List α}
    (h : fresh.Perm fresh') :
    reaches sought next stack fresh = reaches sought next stack fresh' := by
  fun_induction reaches sought next stack fresh generalizing fresh' with
  | case1 => rw [reaches]
  | case2 x stack fresh hx ih =>
    rw [reaches, if_pos (h.mem_iff.1 hx), ih (h.erase x)]
  | case3 x stack fresh hx ih =>
    rw [reaches, if_neg fun hx' => hx (h.mem_iff.2 hx'), ih h]

section Closed

variable {fresh : List α} (hclosed : ∀ x ∈ fresh, ∀ y ∈ next x, y ∈ fresh) {a : α} (ha : a ∈ fresh)
include hclosed ha

theorem mem_breadthFirst_iff_reflTransGen {z : α} :
    z ∈ breadthFirst next [a] fresh ↔ Relation.ReflTransGen (Edge next) a z := by
  rw [mem_breadthFirst_iff]
  simp only [List.mem_singleton, exists_eq_left, Enters.iff_reflTransGen hclosed ha]

theorem reaches_iff_reflTransGen {sought : α → Bool} :
    reaches sought next [a] fresh = true ↔
      ∃ z, sought z = true ∧ Relation.ReflTransGen (Edge next) a z := by
  rw [reaches_iff]
  simp only [List.mem_singleton, exists_eq_left, Enters.iff_reflTransGen hclosed ha]

omit [DecidableEq α] in
theorem mem_of_pathTo {n : Nat} {x : α} (h : PathTo (Edge next) a n x) : x ∈ fresh := by
  induction h with
  | start => exact ha
  | step _ hc ih => exact hclosed _ ih _ hc

end Closed

/-- A node that is entered is no further away than those that are entered after it. -/
theorem Frontier.pairwise {a : α} {k : Nat} {front back fresh : List α}
    (h : Frontier next a k front back fresh) :
    (breadthFirst next (front ++ back) fresh).Pairwise fun x y =>
      ∀ n, PathTo (Edge next) a n y → ∃ m ≤ n, PathTo (Edge next) a m x := by
  generalize hqueue : front ++ back = queue
  fun_induction breadthFirst next queue fresh generalizing k front back with
  | case1 => exact List.Pairwise.nil
  | case2 x queue fresh hx ih =>
    obtain ⟨k, front, back, h, rfl⟩ := h.exists_cons hqueue.symm
    rw [List.append_assoc] at ih ⊢
    refine List.pairwise_cons.2 ⟨fun y hy n hpath => ?_, ih (h.enter hx) rfl⟩
    obtain ⟨m, hm, hpath'⟩ := h.front_near x List.mem_cons_self
    have hy' := List.mem_of_mem_erase (mem_fresh_of_mem_breadthFirst hy)
    exact ⟨m, Nat.le_trans hm (h.passed y hy' n hpath), hpath'⟩
  | case3 x queue fresh hx ih =>
    obtain ⟨k, front, back, h, rfl⟩ := h.exists_cons hqueue.symm
    exact ih (h.skip hx) rfl

/-- From a single start, nodes are listed in the order of their distance. -/
theorem pairwise_breadthFirst {a : α} {fresh : List α} (hnodup : fresh.Nodup)
    (hfresh : ∀ n x, PathTo (Edge next) a n x → x ∈ fresh) :
    (breadthFirst next [a] fresh).Pairwise fun x y =>
      ∀ m n, Distance (Edge next) a x m → Distance (Edge next) a y n → m ≤ n := by
  refine (Frontier.start hnodup hfresh).pairwise.imp fun hnear m n hx hy => ?_
  obtain ⟨m', hle, hpath⟩ := hnear n hy.1
  exact Nat.le_trans (hx.2 hpath) hle

section Further

variable {Old : α → Prop} {next' : α → List α} {extra : List α}
  (hextra : ∀ x ∈ extra, ¬Old x) (hsame : ∀ x, Old x → next' x = next x)
  (hclosed : ∀ x, Old x → ∀ y ∈ next x, Old y)

omit [DecidableEq α] in
include hextra in
theorem mem_append_extra_iff {x : α} (hx : Old x) {fresh : List α} :
    x ∈ fresh ++ extra ↔ x ∈ fresh := by
  rw [List.mem_append, or_iff_left]
  exact fun hmem => hextra x hmem hx

include hextra hsame hclosed

/-- Nodes that no old one leads to are of no use to a search that starts from old ones. -/
theorem breadthFirst_append {queue fresh : List α} (hqueue : ∀ x ∈ queue, Old x) :
    breadthFirst next' queue (fresh ++ extra) = breadthFirst next queue fresh := by
  fun_induction breadthFirst next queue fresh with
  | case1 => rw [breadthFirst]
  | case2 x queue fresh hx ih =>
    rw [List.forall_mem_cons] at hqueue
    have hrest : ∀ y ∈ queue ++ next x, Old y :=
      List.forall_mem_append.2 ⟨hqueue.2, hclosed x hqueue.1⟩
    rw [breadthFirst, if_pos (List.mem_append_left _ hx), hsame x hqueue.1,
      List.erase_append_left _ hx, ih hrest]
  | case3 x queue fresh hx ih =>
    rw [List.forall_mem_cons] at hqueue
    have hunknown : x ∉ fresh ++ extra := fun h => hx ((mem_append_extra_iff hextra hqueue.1).1 h)
    rw [breadthFirst, if_neg hunknown, ih hqueue.2]

theorem reaches_append {sought : α → Bool} {stack fresh : List α} (hstack : ∀ x ∈ stack, Old x) :
    reaches sought next' stack (fresh ++ extra) = reaches sought next stack fresh := by
  fun_induction reaches sought next stack fresh with
  | case1 => rw [reaches]
  | case2 x stack fresh hx ih =>
    rw [List.forall_mem_cons] at hstack
    have hrest : ∀ y ∈ next x ++ stack, Old y :=
      List.forall_mem_append.2 ⟨hclosed x hstack.1, hstack.2⟩
    rw [reaches, if_pos (List.mem_append_left _ hx), hsame x hstack.1,
      List.erase_append_left _ hx, ih hrest]
  | case3 x stack fresh hx ih =>
    rw [List.forall_mem_cons] at hstack
    have hunknown : x ∉ fresh ++ extra := fun h => hx ((mem_append_extra_iff hextra hstack.1).1 h)
    rw [reaches, if_neg hunknown, ih hstack.2]

end Further

end InteropWitness

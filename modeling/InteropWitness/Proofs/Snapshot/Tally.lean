import InteropWitness.Snapshot.Results

namespace InteropWitness.Tally

variable {α : Type} {before : α → α → Bool}

/-- How many of the items that were met have the property. -/
def total (p : α → Bool) : Tally α → Nat
  | [] => 0
  | e :: rest => (if p e.1 then e.2 else 0) + total p rest

theorem total_eq_zero {p : α → Bool} {tally : Tally α} (h : ∀ e ∈ tally, p e.1 = false) :
    total p tally = 0 := by
  induction tally with
  | nil => rfl
  | cons e rest ih =>
    rw [List.forall_mem_cons] at h
    rw [total, h.1, ih h.2]
    rfl

variable [DecidableEq α]

theorem total_add (p : α → Bool) (item : α) (tally : Tally α) :
    total p (add before item tally) = total p tally + if p item then 1 else 0 := by
  induction tally with
  | nil => exact Nat.add_comm _ _
  | cons e rest ih =>
    rw [add]
    split
    · next h =>
      rw [total, total, h]
      split <;> omega
    · split
      · rw [total, Nat.add_comm]
      · rw [total, total, ih, Nat.add_assoc]

theorem total_ofList (p : α → Bool) (items : List α) :
    total p (ofList before items) = items.countP p := by
  have hfrom : ∀ tally : Tally α,
      total p (items.foldl (fun tally item => add before item tally) tally) =
        total p tally + items.countP p := by
    induction items with
    | nil => exact fun _ => rfl
    | cons item rest ih =>
      intro tally
      rw [List.foldl_cons, ih, total_add, List.countP_cons]
      omega
  exact (hfrom []).trans (Nat.zero_add _)

/-- `before` puts all items into one order. -/
structure Orders (before : α → α → Bool) : Prop where
  irrefl : ∀ a, before a a = false
  trans : ∀ {a b c}, before a b = true → before b c = true → before a c = true
  connected : ∀ {a b}, a ≠ b → before a b = false → before b a = true

def Sorted (before : α → α → Bool) (tally : Tally α) : Prop :=
  tally.Pairwise fun e f => before e.1 f.1 = true

theorem mem_add {item : α} {tally : Tally α} {e : α × Nat} (h : e ∈ add before item tally) :
    e.1 = item ∨ ∃ f ∈ tally, f.1 = e.1 := by
  induction tally with
  | nil => exact Or.inl (congrArg Prod.fst (List.mem_singleton.1 h))
  | cons f rest ih =>
    rw [add] at h
    split at h
    · next hitem =>
      rcases List.mem_cons.1 h with rfl | hrest
      · exact Or.inl hitem.symm
      · exact Or.inr ⟨e, List.mem_cons_of_mem _ hrest, rfl⟩
    · split at h
      · rcases List.mem_cons.1 h with rfl | hold
        · exact Or.inl rfl
        · exact Or.inr ⟨e, hold, rfl⟩
      · rcases List.mem_cons.1 h with rfl | hrest
        · exact Or.inr ⟨_, List.mem_cons_self, rfl⟩
        · rcases ih hrest with hitem | ⟨g, hg, heq⟩
          · exact Or.inl hitem
          · exact Or.inr ⟨g, List.mem_cons_of_mem _ hg, heq⟩

theorem sorted_add (horder : Orders before) {tally : Tally α} (h : Sorted before tally)
    (item : α) : Sorted before (add before item tally) := by
  induction tally with
  | nil => exact List.pairwise_singleton _ _
  | cons f rest ih =>
    obtain ⟨hfirst, hrest⟩ := List.pairwise_cons.1 h
    rw [add]
    split
    · exact List.pairwise_cons.2 ⟨hfirst, hrest⟩
    · next hne =>
      split
      · next hbefore =>
        refine List.pairwise_cons.2 ⟨?_, h⟩
        intro e he
        rcases List.mem_cons.1 he with rfl | he
        · exact hbefore
        · exact horder.trans hbefore (hfirst e he)
      · next hafter =>
        refine List.pairwise_cons.2 ⟨?_, ih hrest⟩
        intro e he
        rcases mem_add he with hitem | ⟨g, hg, heq⟩
        · rw [hitem]
          exact horder.connected hne (Bool.eq_false_iff.2 hafter)
        · rw [← heq]
          exact hfirst g hg

theorem count_eq_total (horder : Orders before) {tally : Tally α} (h : Sorted before tally)
    (item : α) : tally.count item = total (· = item) tally := by
  induction tally with
  | nil => rfl
  | cons f rest ih =>
    obtain ⟨hfirst, hrest⟩ := List.pairwise_cons.1 h
    rw [total]
    by_cases hitem : f.1 = item
    · have hother : ∀ e ∈ rest, decide (e.1 = item) = false := by
        intro e he
        rw [decide_eq_false_iff_not]
        intro heq
        have hbefore := hfirst e he
        rw [hitem, heq, horder.irrefl] at hbefore
        cases hbefore
      rw [total_eq_zero hother, count, List.lookup_cons, hitem]
      simp
    · have hne : (item == f.1) = false := beq_eq_false_iff_ne.2 (Ne.symm hitem)
      rw [← ih hrest, count, List.lookup_cons, hne, if_neg (by simpa using hitem), Nat.zero_add,
        count]

theorem sorted_ofList (horder : Orders before) (items : List α) :
    Sorted before (ofList before items) := by
  have hfrom : ∀ tally : Tally α, Sorted before tally →
      Sorted before (items.foldl (fun tally item => add before item tally) tally) := by
    induction items with
    | nil => exact fun _ h => h
    | cons first rest ih => exact fun tally h => ih _ (sorted_add horder h first)
  exact hfrom [] List.Pairwise.nil

theorem count_ofList (horder : Orders before) (items : List α) (item : α) :
    (ofList before items).count item = items.count item := by
  rw [count_eq_total horder (sorted_ofList horder items), total_ofList]
  rfl

end InteropWitness.Tally

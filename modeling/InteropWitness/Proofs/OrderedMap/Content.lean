import InteropWitness.Proofs.OrderedMap
import Mathlib.Data.List.Nodup
import Mathlib.Data.List.Perm.Subperm

namespace InteropWitness.OrderedMap

section Overlay

variable {κ α : Type} [DecidableEq κ]

theorem keys_overlay_entries (m n : OrderedMap κ α) :
    (m.entries.map (fun e => (e.1, (n.get? e.1).getD e.2)) ++
        n.entries.filter (·.1 ∉ m.keys)).map Prod.fst =
      m.keys ++ n.keys.filter (· ∉ m.keys) := by
  have hlower : (m.entries.map fun e => (e.1, (n.get? e.1).getD e.2)).map Prod.fst = m.keys := by
    rw [List.map_map]
    rfl
  have hupper : (n.entries.filter (·.1 ∉ m.keys)).map Prod.fst = n.keys.filter (· ∉ m.keys) := by
    rw [keys, keys, List.filter_map]
    rfl
  rw [List.map_append, hlower, hupper]

/-- The entries of `m` in their places, with the values of `n` for the keys that both have, and
behind them the entries of `n` with the other keys. -/
def overlay (m n : OrderedMap κ α) : OrderedMap κ α :=
  ⟨m.entries.map (fun e => (e.1, (n.get? e.1).getD e.2)) ++ n.entries.filter (·.1 ∉ m.keys), by
    rw [keys_overlay_entries, List.nodup_append]
    refine ⟨m.nodup_keys, n.nodup_keys.filter _, ?_⟩
    intro key hlower other hupper heq
    have hnew := (List.mem_filter.1 hupper).2
    rw [decide_eq_true_eq, ← heq] at hnew
    exact hnew hlower⟩

theorem keys_overlay (m n : OrderedMap κ α) :
    (m.overlay n).keys = m.keys ++ n.keys.filter (· ∉ m.keys) := keys_overlay_entries m n

theorem get?_overlay (m n : OrderedMap κ α) (key : κ) :
    (m.overlay n).get? key = (n.get? key).or (m.get? key) := by
  have hlookup : (m.overlay n).get? key =
      ((m.mapValues fun k v => (n.get? k).getD v).get? key).or
        ((n.entries.filter (·.1 ∉ m.keys)).lookup key) := List.lookup_append
  rw [hlookup, get?_mapValues]
  cases hm : m.get? key with
  | some value =>
    rw [Option.map_some, Option.some_or]
    cases n.get? key with
    | none => rfl
    | some other => rfl
  | none =>
    have hnew : key ∉ m.keys := get?_eq_none_iff.1 hm
    rw [Option.map_none, Option.none_or, Option.or_none, get?]
    induction n.entries with
    | nil => rfl
    | cons e rest ih =>
      obtain ⟨k, v⟩ := e
      by_cases hk : k ∈ m.keys
      · have hne : (key == k) = false := beq_eq_false_iff_ne.2 fun h => hnew (h ▸ hk)
        rw [List.filter_cons_of_neg (by simpa using hk), List.lookup_cons, hne, ih]
      · rw [List.filter_cons_of_pos (by simpa using hk), List.lookup_cons, List.lookup_cons, ih]

@[simp] theorem overlay_empty (m : OrderedMap κ α) : m.overlay empty = m := by
  apply eq_of_keys
  · rw [keys_overlay]
    exact List.append_nil m.keys
  · intro key
    rw [get?_overlay, get?_empty, Option.none_or]

theorem overlay_assign (m n : OrderedMap κ α) (key : κ) (value : α) :
    (m.overlay n).assign key value = m.overlay (n.assign key value) := by
  apply eq_of_keys
  · rw [keys_assign, keys_overlay, keys_overlay, keys_assign]
    by_cases hlower : key ∈ m.keys <;> by_cases hupper : key ∈ n.keys <;> simp [hlower, hupper]
  · intro other
    rw [get?_assign, get?_overlay, get?_overlay, get?_assign]
    by_cases h : other = key
    · rw [if_pos h, if_pos h, Option.some_or]
    · rw [if_neg h, if_neg h]

/-- Entries that are assigned to a map go over it, those of one key in its first place. -/
theorem foldl_assign_eq_overlay (entries : List (κ × α)) (m : OrderedMap κ α) :
    entries.foldl (fun m e => m.assign e.1 e.2) m = m.overlay (ofList entries) := by
  have hover : ∀ n : OrderedMap κ α, entries.foldl (fun m e => m.assign e.1 e.2) (m.overlay n) =
      m.overlay (entries.foldl (fun m e => m.assign e.1 e.2) n) := by
    induction entries with
    | nil => exact fun n => rfl
    | cons e rest ih =>
      intro n
      rw [List.foldl_cons, overlay_assign, ih, List.foldl_cons]
  have hempty := hover empty
  rw [overlay_empty] at hempty
  exact hempty

end Overlay

variable {κ α : Type}

theorem nodup_entries (m : OrderedMap κ α) : m.entries.Nodup := List.Nodup.of_map Prod.fst m.nodup

def without [DecidableEq κ] (m : OrderedMap κ α) (keys : List κ) : OrderedMap κ α :=
  ⟨m.entries.filter fun e => e.1 ∉ keys,
    List.Nodup.sublist (List.filter_sublist.map Prod.fst) m.nodup⟩

variable [DecidableEq κ]

theorem ext_entries_iff {m n : OrderedMap κ α} :
    (∀ key, m.get? key = n.get? key) ↔ ∀ e, e ∈ m.entries ↔ e ∈ n.entries := by
  constructor
  · intro h e
    rw [← get?_eq_some_iff, ← get?_eq_some_iff, h]
  · intro h key
    apply Option.ext
    intro value
    rw [get?_eq_some_iff, get?_eq_some_iff, h]

theorem perm_entries_iff {m n : OrderedMap κ α} :
    m.entries.Perm n.entries ↔ ∀ key, m.get? key = n.get? key := by
  rw [List.perm_ext_iff_of_nodup m.nodup_entries n.nodup_entries, ext_entries_iff]

theorem get?_without (m : OrderedMap κ α) (keys : List κ) (key : κ) :
    (m.without keys).get? key = if key ∈ keys then none else m.get? key := by
  apply Option.ext
  intro value
  rw [get?_eq_some_iff, without, List.mem_filter]
  split
  · next h => simp [h]
  · next h => simp [h, get?_eq_some_iff]

theorem get?_foldl_assign (entries : List (κ × α)) (m : OrderedMap κ α) (key : κ) :
    (entries.foldl (fun m e => m.assign e.1 e.2) m).get? key =
      (entries.reverse.lookup key).or (m.get? key) := by
  induction entries generalizing m with
  | nil => rfl
  | cons e rest ih =>
    obtain ⟨k, v⟩ := e
    rw [List.foldl_cons, ih, get?_assign, List.reverse_cons, List.lookup_append, Option.or_assoc,
      List.lookup_cons, List.lookup_nil]
    by_cases h : key = k
    · simp [h]
    · simp [h, beq_eq_false_iff_ne.2 h]

theorem mem_of_get?_ofList {entries : List (κ × α)} {key : κ} {value : α}
    (h : (ofList entries).get? key = some value) : (key, value) ∈ entries := by
  rw [ofList, get?_foldl_assign, get?_empty, Option.or_none] at h
  obtain ⟨before, after, hsplit, _⟩ := List.lookup_eq_some_iff.1 h
  rw [← List.mem_reverse, hsplit]
  simp

theorem get?_ofList {entries : List (κ × α)} (hnd : (entries.map Prod.fst).Nodup) {e : κ × α}
    (he : e ∈ entries) : (ofList entries).get? e.1 = some e.2 := by
  rw [get?_eq_some_iff, ofList, entries_foldl_assign hnd]
  exact he

theorem sameEntries_iff [DecidableEq α] {m n : OrderedMap κ α} :
    m.sameEntries n = true ↔ ∀ key, m.get? key = n.get? key := by
  rw [← perm_entries_iff, sameEntries, Bool.and_eq_true, decide_eq_true_eq, List.all_eq_true]
  simp only [decide_eq_true_eq, get?_eq_some_iff, size]
  constructor
  · intro h
    have hsub := List.subperm_of_subset m.nodup_entries h.2
    exact hsub.perm_of_length_le (Nat.le_of_eq h.1.symm)
  · intro h
    exact ⟨h.length_eq, fun e he => h.mem_iff.1 he⟩

end InteropWitness.OrderedMap

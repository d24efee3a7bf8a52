import InteropWitness.Proofs.OrderedMap.Content
import InteropWitness.Proofs.Snapshot.Tally
import InteropWitness.Snapshot.Diff

namespace InteropWitness

def Change.reversed (c : Change) : Change := ⟨c.key, c.new, c.old⟩

def Change.before (c : Change) : String × String := (c.key, c.old)

def Change.after (c : Change) : String × String := (c.key, c.new)

theorem Tally.orders_string : Tally.Orders fun a b : String => a < b where
  irrefl a := decide_eq_false (String.lt_irrefl a)
  trans hab hbc := decide_eq_true (String.lt_trans (of_decide_eq_true hab) (of_decide_eq_true hbc))
  connected hne hab := by
    have hle := String.not_lt.1 (of_decide_eq_false hab)
    exact decide_eq_true (Std.lt_of_le_of_ne hle (Ne.symm hne))

theorem Snapshot.count_histogram (s : Snapshot) (tag : String) :
    s.histogram.count tag = s.entries.entries.countP fun e => Text.Bracketed.tag e.2 = tag := by
  rw [histogram, Tally.count_ofList Tally.orders_string, List.count_eq_countP, OrderedMap.values,
    List.countP_map, List.countP_map]
  rfl

namespace Diff

/-- The map without the removed keys, and with the new tokens of the changed and added ones. -/
def patch (d : Diff) (m : OrderedMap String String) : OrderedMap String String :=
  (d.changed.map Change.after ++ d.added).foldl (fun m e => m.assign e.1 e.2)
    (m.without (d.removed.map Prod.fst))

/-- The entries that two snapshots share. -/
def kept (old new : Snapshot) : List (String × String) :=
  new.entries.entries.filter fun e => old.entries.get? e.1 = some e.2

/-- The change from a map to an entry, if the map has another token for its key. -/
def change? (m : OrderedMap String String) (e : String × String) : Option Change :=
  match m.get? e.1 with
  | some token => if token = e.2 then none else some ⟨e.1, token, e.2⟩
  | none => none

variable {old new : Snapshot}

theorem mem_added_iff {e : String × String} :
    e ∈ (between old new).added ↔
      new.entries.get? e.1 = some e.2 ∧ old.entries.get? e.1 = none := by
  rw [between, List.mem_filter, OrderedMap.get?_eq_some_iff, OrderedMap.contains]
  simp

theorem change?_eq_some_iff {m : OrderedMap String String} {e : String × String} {c : Change} :
    change? m e = some c ↔ m.get? c.key = some c.old ∧ c.old ≠ c.new ∧ c.after = e := by
  unfold change?
  constructor
  · intro h
    split at h
    · next token htoken =>
      split at h
      · cases h
      · next hother =>
        cases h
        exact ⟨htoken, hother, rfl⟩
    · cases h
  · rintro ⟨hold, hother, rfl⟩
    simp [Change.after, hold, hother]

theorem mem_changed_iff {c : Change} :
    c ∈ (between old new).changed ↔
      old.entries.get? c.key = some c.old ∧ new.entries.get? c.key = some c.new ∧
        c.old ≠ c.new := by
  have hmem : c ∈ (between old new).changed ↔
      ∃ e ∈ new.entries.entries, change? old.entries e = some c := List.mem_filterMap
  simp only [hmem, change?_eq_some_iff, OrderedMap.get?_eq_some_iff (m := new.entries)]
  constructor
  · rintro ⟨e, he, hold, hother, rfl⟩
    exact ⟨hold, he, hother⟩
  · rintro ⟨hold, hnew, hother⟩
    exact ⟨c.after, hnew, hold, hother, rfl⟩

theorem mem_kept_iff {e : String × String} :
    e ∈ kept old new ↔ old.entries.get? e.1 = some e.2 ∧ new.entries.get? e.1 = some e.2 := by
  simp only [kept, List.mem_filter, decide_eq_true_eq,
    OrderedMap.get?_eq_some_iff (m := new.entries), and_comm]

/-- Of some entries each is missing in the map, differs from it or agrees with it. -/
theorem perm_split (m : OrderedMap String String) (entries : List (String × String)) :
    ((entries.filter fun e => !m.contains e.1) ++
      (entries.filterMap (change? m)).map Change.after ++
      entries.filter fun e => m.get? e.1 = some e.2).Perm entries := by
  induction entries with
  | nil => exact List.Perm.nil
  | cons e rest ih =>
    cases hm : m.get? e.1 with
    | none =>
      have hchange : change? m e = none := by rw [change?, hm]
      rw [List.filter_cons_of_pos (by simp [OrderedMap.contains, hm]),
        List.filterMap_cons_none hchange, List.filter_cons_of_neg (by simp [hm])]
      exact ih.cons e
    | some token =>
      rw [List.filter_cons_of_neg (by simp [OrderedMap.contains, hm])]
      by_cases hsame : token = e.2
      · have hchange : change? m e = none := by simp [change?, hm, hsame]
        rw [List.filterMap_cons_none hchange, List.filter_cons_of_pos (by simp [hm, hsame])]
        exact List.perm_middle.trans (ih.cons e)
      · have hchange : change? m e = some ⟨e.1, token, e.2⟩ := by simp [change?, hm, hsame]
        rw [List.filterMap_cons_some hchange, List.map_cons,
          List.filter_cons_of_neg (by simp [hm, hsame]), List.append_assoc, List.cons_append]
        rw [List.append_assoc] at ih
        exact List.perm_middle.trans (ih.cons e)

variable (old new : Snapshot)

theorem perm_new :
    ((between old new).added ++ (between old new).changed.map Change.after ++ kept old new).Perm
      new.entries.entries :=
  perm_split old.entries new.entries.entries

theorem nodup_new :
    ((between old new).added.map Prod.fst ++ (between old new).changed.map Change.key ++
      (kept old new).map Prod.fst).Nodup := by
  have hkeys := ((perm_new old new).map Prod.fst).nodup_iff.2 new.entries.nodup
  rw [List.map_append, List.map_append, List.map_map] at hkeys
  exact hkeys

theorem nodup_changed : (between old new).changed.Nodup := by
  have hkeys := (List.nodup_append.1 (nodup_new old new)).1
  exact List.Nodup.of_map Change.key (List.nodup_append.1 hkeys).2.1

theorem perm_changed :
    (between new old).changed.Perm ((between old new).changed.map Change.reversed) := by
  have hinjective : Function.Injective Change.reversed :=
    fun _ _ h => congrArg Change.reversed h
  rw [List.perm_ext_iff_of_nodup (nodup_changed new old) ((nodup_changed old new).map hinjective)]
  intro c
  rw [List.mem_map]
  constructor
  · intro hc
    obtain ⟨hnew, hold, hother⟩ := mem_changed_iff.1 hc
    exact ⟨c.reversed, mem_changed_iff.2 ⟨hold, hnew, Ne.symm hother⟩, rfl⟩
  · rintro ⟨c, hc, rfl⟩
    obtain ⟨hold, hnew, hother⟩ := mem_changed_iff.1 hc
    exact mem_changed_iff.2 ⟨hnew, hold, Ne.symm hother⟩

theorem perm_kept : (kept new old).Perm (kept old new) := by
  have hnodup : ∀ old new : Snapshot, (kept old new).Nodup := fun _ new =>
    new.entries.nodup_entries.sublist List.filter_sublist
  rw [List.perm_ext_iff_of_nodup (hnodup new old) (hnodup old new)]
  intro e
  rw [mem_kept_iff, mem_kept_iff, and_comm]

theorem perm_old :
    ((between old new).removed ++ (between old new).changed.map Change.before ++
      kept old new).Perm old.entries.entries := by
  have hchanged := (perm_changed old new).map Change.after
  rw [List.map_map] at hchanged
  exact ((hchanged.append_left _).append (perm_kept old new)).symm.trans (perm_new new old)

variable {old new}

theorem mem_keys_removed_iff {key : String} :
    key ∈ (between old new).removed.map Prod.fst ↔
      new.entries.get? key = none ∧ old.entries.get? key ≠ none := by
  have hmem : ∀ e, e ∈ (between old new).removed ↔
      old.entries.get? e.1 = some e.2 ∧ new.entries.get? e.1 = none :=
    fun _ => mem_added_iff
  rw [List.mem_map, Option.ne_none_iff_exists']
  constructor
  · rintro ⟨e, he, rfl⟩
    exact ⟨((hmem e).1 he).2, e.2, ((hmem e).1 he).1⟩
  · rintro ⟨hnew, token, hold⟩
    exact ⟨(key, token), (hmem _).2 ⟨hold, hnew⟩, rfl⟩

theorem mem_patches_iff {e : String × String} :
    e ∈ (between old new).changed.map Change.after ++ (between old new).added ↔
      new.entries.get? e.1 = some e.2 ∧ old.entries.get? e.1 ≠ some e.2 := by
  rw [List.mem_append, List.mem_map, mem_added_iff]
  constructor
  · rintro (⟨c, hc, rfl⟩ | ⟨hnew, hold⟩)
    · obtain ⟨hold, hnew, hother⟩ := mem_changed_iff.1 hc
      exact ⟨hnew, fun hsame => hother (Option.some.inj (hold.symm.trans hsame))⟩
    · exact ⟨hnew, fun hsame => by rw [hold] at hsame; cases hsame⟩
  · rintro ⟨hnew, hother⟩
    cases hold : old.entries.get? e.1 with
    | none => exact Or.inr ⟨hnew, rfl⟩
    | some token =>
      refine Or.inl ⟨⟨e.1, token, e.2⟩, mem_changed_iff.2 ⟨hold, hnew, ?_⟩, rfl⟩
      exact fun hsame => hother (hold.trans (congrArg some hsame))

variable (old new)

theorem nodup_keys :
    ((between old new).added.map Prod.fst ++ (between old new).removed.map Prod.fst ++
      (between old new).changed.map Change.key).Nodup := by
  have hnew := (List.nodup_append.1 (nodup_new old new)).1
  have hremoved := (List.nodup_append.1 (List.nodup_append.1 (nodup_new new old)).1).1
  have hfront : ((between old new).removed.map Prod.fst ++
      ((between old new).added.map Prod.fst ++
        (between old new).changed.map Change.key)).Nodup := by
    refine List.nodup_append.2 ⟨hremoved, hnew, ?_⟩
    rintro key hkey other hother rfl
    have hnone := (mem_keys_removed_iff.1 hkey).1
    rcases List.mem_append.1 hother with hadded | hchanged
    · obtain ⟨e, he, rfl⟩ := List.mem_map.1 hadded
      rw [(mem_added_iff.1 he).1] at hnone
      cases hnone
    · obtain ⟨c, hc, rfl⟩ := List.mem_map.1 hchanged
      rw [(mem_changed_iff.1 hc).2.1] at hnone
      cases hnone
  rw [← List.append_assoc] at hfront
  exact (List.perm_append_comm.append_right _).nodup_iff.1 hfront

theorem get?_patch_between (key : String) :
    ((between old new).patch old.entries).get? key = new.entries.get? key := by
  rw [patch, OrderedMap.get?_foldl_assign, OrderedMap.get?_without]
  cases hput : ((between old new).changed.map Change.after ++
      (between old new).added).reverse.lookup key with
  | some token =>
    obtain ⟨before, after, hsplit, _⟩ := List.lookup_eq_some_iff.1 hput
    have hmem : (key, token) ∈ (between old new).changed.map Change.after ++
        (between old new).added := by
      rw [← List.mem_reverse, hsplit]
      simp
    exact (mem_patches_iff.1 hmem).1.symm
  | none =>
    rw [Option.none_or]
    cases hnew : new.entries.get? key with
    | none =>
      split
      · rfl
      · next hkept =>
        rw [mem_keys_removed_iff, not_and_not_right] at hkept
        exact hkept hnew
    | some token =>
      have hold : old.entries.get? key = some token := by
        by_contra hother
        have hmem : (key, token) ∈ (between old new).changed.map Change.after ++
            (between old new).added := mem_patches_iff.2 ⟨hnew, hother⟩
        have habsent := List.lookup_eq_none_iff.1 hput (key, token) (List.mem_reverse.2 hmem)
        simp at habsent
      have hkept : key ∉ (between old new).removed.map Prod.fst := by
        rw [mem_keys_removed_iff, hnew]
        simp
      rw [if_neg hkept, hold]

theorem isEmpty_between_iff :
    (between old new).isEmpty = true ↔ ∀ key, old.entries.get? key = new.entries.get? key := by
  rw [isEmpty, Bool.and_eq_true, Bool.and_eq_true, List.isEmpty_iff, List.isEmpty_iff,
    List.isEmpty_iff]
  constructor
  · rintro ⟨⟨hadded, hremoved⟩, hchanged⟩ key
    rw [← get?_patch_between old new, patch, hadded, hremoved, hchanged]
    simp [OrderedMap.get?_without]
  · intro h
    have hadded : ∀ {old new : Snapshot},
        (∀ key, old.entries.get? key = new.entries.get? key) → (between old new).added = [] := by
      intro old new h
      rw [List.eq_nil_iff_forall_not_mem]
      intro e he
      obtain ⟨hnew, hold⟩ := mem_added_iff.1 he
      rw [← h, hold] at hnew
      cases hnew
    refine ⟨⟨hadded h, hadded fun key => (h key).symm⟩, ?_⟩
    rw [List.eq_nil_iff_forall_not_mem]
    intro c hc
    obtain ⟨hold, hnew, hother⟩ := mem_changed_iff.1 hc
    rw [h, hnew] at hold
    exact hother (Option.some.inj hold).symm

theorem histogram_balance (tag : String) :
    new.histogram.count tag +
        (between old new).removed.countP (fun e => Text.Bracketed.tag e.2 = tag) +
        (between old new).moves.total (fun m => m.1 = tag) =
      old.histogram.count tag +
        (between old new).added.countP (fun e => Text.Bracketed.tag e.2 = tag) +
        (between old new).moves.total (fun m => m.2 = tag) := by
  have hfrom : (between old new).moves.total (fun m => m.1 = tag) =
      ((between old new).changed.map Change.before).countP
        fun e => Text.Bracketed.tag e.2 = tag := by
    rw [moves, Tally.total_ofList, List.countP_map, List.countP_map]
    rfl
  have hto : (between old new).moves.total (fun m => m.2 = tag) =
      ((between old new).changed.map Change.after).countP
        fun e => Text.Bracketed.tag e.2 = tag := by
    rw [moves, Tally.total_ofList, List.countP_map, List.countP_map]
    rfl
  rw [Snapshot.count_histogram, Snapshot.count_histogram, ← (perm_new old new).countP_eq,
    ← (perm_old old new).countP_eq, hfrom, hto]
  simp only [List.countP_append]
  omega

/-- For every two snapshots: what is added, changed and unchanged makes up the new one, and what is
removed, changed and unchanged the old one; no name is in two of the three lists, and none twice in
one. Deleting the removed names from the old snapshot and putting in the changed and the added
tokens gives the new one as a map, and the difference is empty exactly if the two are the same map.
The other way round, additions and removals change places and every change is reversed. For each tag
the histograms balance with the removed and added entries and the moves from and to the tag. -/
theorem between_accounts (old new : Snapshot) :
    ((between old new).added.length + (between old new).changed.length +
        (between old new).unchanged = new.entries.size ∧
      (between old new).removed.length + (between old new).changed.length +
        (between old new).unchanged = old.entries.size) ∧
    ((between old new).added.map Prod.fst ++ (between old new).removed.map Prod.fst ++
      (between old new).changed.map Change.key).Nodup ∧
    (∀ key, ((between old new).patch old.entries).get? key = new.entries.get? key) ∧
    ((between old new).isEmpty = true ↔ ∀ key, old.entries.get? key = new.entries.get? key) ∧
    (old.entries.sameEntries new.entries = true ↔
      ∀ key, old.entries.get? key = new.entries.get? key) ∧
    ((between new old).unchanged = (between old new).unchanged ∧
      (between new old).added = (between old new).removed ∧
      (between new old).removed = (between old new).added ∧
      (between new old).changed.Perm ((between old new).changed.map Change.reversed)) ∧
    ∀ tag, new.histogram.count tag +
        (between old new).removed.countP (fun e => Text.Bracketed.tag e.2 = tag) +
        (between old new).moves.total (fun m => m.1 = tag) =
      old.histogram.count tag +
        (between old new).added.countP (fun e => Text.Bracketed.tag e.2 = tag) +
        (between old new).moves.total (fun m => m.2 = tag) := by
  have hnew := (perm_new old new).length_eq
  have hold := (perm_old old new).length_eq
  simp only [List.length_append, List.length_map] at hnew hold
  exact ⟨⟨hnew, hold⟩, nodup_keys old new, get?_patch_between old new, isEmpty_between_iff old new,
    OrderedMap.sameEntries_iff, ⟨(perm_kept old new).length_eq, rfl, rfl, perm_changed old new⟩,
    histogram_balance old new⟩

end Diff

end InteropWitness

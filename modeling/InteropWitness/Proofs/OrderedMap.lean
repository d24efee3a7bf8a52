import InteropWitness.OrderedMap

namespace InteropWitness.OrderedMap

variable {κ α : Type}

theorem eq_of_entries {m n : OrderedMap κ α} (h : m.entries = n.entries) : m = n := by
  cases m
  cases n
  cases h
  rfl

theorem nodup_keys (m : OrderedMap κ α) : m.keys.Nodup := m.nodup

/-- The map with the value of each key replaced, in the same order. -/
def mapValues (f : κ → α → α) (m : OrderedMap κ α) : OrderedMap κ α :=
  ⟨m.entries.map fun e => (e.1, f e.1 e.2), by
    rw [List.map_map]
    exact m.nodup⟩

@[simp] theorem keys_mapValues (f : κ → α → α) (m : OrderedMap κ α) :
    (m.mapValues f).keys = m.keys := by
  simp [keys, mapValues]

theorem mapValues_mapValues (f g : κ → α → α) (m : OrderedMap κ α) :
    (m.mapValues f).mapValues g = m.mapValues fun key value => g key (f key value) := by
  apply eq_of_entries
  simp [mapValues]

theorem mapValues_eq_self (m : OrderedMap κ α) : m.mapValues (fun _ value => value) = m := by
  apply eq_of_entries
  simp [mapValues]

variable [DecidableEq κ]

theorem get?_mapValues (f : κ → α → α) (m : OrderedMap κ α) (key : κ) :
    (m.mapValues f).get? key = (m.get? key).map (f key) := by
  unfold get? mapValues
  simp only
  induction m.entries with
  | nil => rfl
  | cons e rest ih =>
    obtain ⟨k, v⟩ := e
    by_cases h : key = k
    · subst h
      simp
    · have hb : (key == k) = false := by simpa using h
      simpa [List.lookup_cons, hb] using ih

theorem exists_get?_of_mem {m : OrderedMap κ α} {key : κ} (h : key ∈ m.keys) :
    ∃ value, m.get? key = some value := by
  rw [← contains_iff, contains] at h
  exact Option.isSome_iff_exists.1 h

theorem mem_keys_of_get? {m : OrderedMap κ α} {key : κ} {value : α}
    (h : m.get? key = some value) : key ∈ m.keys := by
  rw [← contains_iff, contains, h]
  rfl

theorem mem_keys_assign {m : OrderedMap κ α} {key other : κ} {value : α} :
    other ∈ (m.assign key value).keys ↔ other = key ∨ other ∈ m.keys := by
  rw [keys_assign]
  split
  · next h => exact (or_iff_right_of_imp fun heq => heq ▸ h).symm
  · rw [List.mem_append, List.mem_singleton, or_comm]

theorem get?_eq_some_iff {m : OrderedMap κ α} {key : κ} {value : α} :
    m.get? key = some value ↔ (key, value) ∈ m.entries := by
  have hnd := m.nodup
  unfold get?
  generalize m.entries = entries at hnd ⊢
  induction entries with
  | nil => simp
  | cons e rest ih =>
    obtain ⟨k, v⟩ := e
    rw [List.map_cons, List.nodup_cons] at hnd
    by_cases h : key = k
    · subst h
      have habsent : (key, value) ∉ rest := fun hmem =>
        hnd.1 (List.mem_map.2 ⟨_, hmem, rfl⟩)
      simp [habsent, eq_comm]
    · have hb : (key == k) = false := by simpa using h
      rw [List.lookup_cons, hb]
      simpa [h] using ih hnd.2

theorem mapValues_congr {m : OrderedMap κ α} {f g : κ → α → α}
    (h : ∀ key value, m.get? key = some value → f key value = g key value) :
    m.mapValues f = m.mapValues g := by
  apply eq_of_entries
  apply List.map_congr_left
  intro e he
  exact congrArg (Prod.mk e.1) (h e.1 e.2 (get?_eq_some_iff.2 he))

theorem place_of_mem {key : κ} {value : α} {entries : List (κ × α)} (f : κ → α → α)
    (hnd : (entries.map Prod.fst).Nodup) (h : (key, value) ∈ entries) :
    place key (f key value) entries =
      entries.map fun e => (e.1, if e.1 = key then f e.1 e.2 else e.2) := by
  induction entries with
  | nil => simp at h
  | cons e rest ih =>
    rw [List.map_cons, List.nodup_cons] at hnd
    obtain ⟨hfresh, hrest⟩ := hnd
    rcases List.mem_cons.1 h with he | hmem
    · subst he
      have hkeep : ∀ e ∈ rest, (e.1, if e.1 = key then f e.1 e.2 else e.2) = e := by
        intro e he
        have hne : e.1 ≠ key := fun heq =>
          hfresh (List.mem_map.2 ⟨e, he, heq⟩)
        simp [hne]
      simp [place, List.map_congr_left hkeep]
    · have hne : e.1 ≠ key := by
        intro heq
        exact hfresh (List.mem_map.2 ⟨_, hmem, heq.symm⟩)
      simp [place, hne, ih hrest hmem]

theorem assign_eq_mapValues {m : OrderedMap κ α} {key : κ} {value : α} (f : κ → α → α)
    (h : m.get? key = some value) :
    m.assign key (f key value) =
      m.mapValues fun other old => if other = key then f other old else old :=
  eq_of_entries (place_of_mem f m.nodup (get?_eq_some_iff.1 h))

theorem assign_self {m : OrderedMap κ α} {key : κ} {value : α} (h : m.get? key = some value) :
    m.assign key value = m := by
  have hassign := assign_eq_mapValues (fun _ old => old) h
  simpa [mapValues_eq_self] using hassign

theorem place_of_not_mem {key : κ} {entries : List (κ × α)} (value : α)
    (h : key ∉ entries.map Prod.fst) : place key value entries = entries ++ [(key, value)] := by
  induction entries with
  | nil => rfl
  | cons e rest ih =>
    rw [List.map_cons, List.mem_cons, not_or] at h
    rw [place, if_neg fun heq => h.1 heq.symm, ih h.2, List.cons_append]

theorem assign_fresh {m : OrderedMap κ α} {e : κ × α} {rest : List (κ × α)}
    (hnd : ((m.entries ++ e :: rest).map Prod.fst).Nodup) :
    e.1 ∉ m.keys ∧ (m.assign e.1 e.2).entries ++ rest = m.entries ++ e :: rest := by
  have hfresh : e.1 ∉ m.keys := by
    rw [List.map_append, List.nodup_append] at hnd
    exact fun hmem => hnd.2.2 e.1 hmem e.1 (by simp) rfl
  have hassign : (m.assign e.1 e.2).entries = m.entries ++ [e] := place_of_not_mem e.2 hfresh
  exact ⟨hfresh, by rw [hassign, List.append_assoc, List.singleton_append]⟩

/-- Keys that are new stand behind the others in the order in which they come. -/
theorem entries_foldl_assign {entries : List (κ × α)} {m : OrderedMap κ α}
    (hnd : ((m.entries ++ entries).map Prod.fst).Nodup) :
    (entries.foldl (fun m e => m.assign e.1 e.2) m).entries = m.entries ++ entries := by
  induction entries generalizing m with
  | nil => exact (List.append_nil m.entries).symm
  | cons e rest ih =>
    obtain ⟨_, hassign⟩ := assign_fresh hnd
    rw [List.foldl_cons, ih (hassign ▸ hnd), hassign]

theorem ofList_entries (m : OrderedMap κ α) : ofList m.entries = m :=
  eq_of_entries (entries_foldl_assign m.nodup)

theorem keys_prefix_assign (m : OrderedMap κ α) (key : κ) (value : α) :
    m.keys <+: (m.assign key value).keys := by
  rw [keys_assign]
  split
  · exact List.prefix_rfl
  · exact List.prefix_append _ _

theorem keys_prefix_insertNew (m : OrderedMap κ α) (key : κ) (value : α) :
    m.keys <+: (m.insertNew key value).keys := by
  rw [keys_insertNew]
  split
  · exact List.prefix_rfl
  · exact List.prefix_append _ _

/-- A map is known from its keys in their order and from what it says of them. -/
theorem eq_of_keys {m n : OrderedMap κ α} (hkeys : m.keys = n.keys)
    (hget : ∀ key, m.get? key = n.get? key) : m = n := by
  have hentry : ∀ l : OrderedMap κ α, ∀ e ∈ l.entries, l.get? e.1 = some e.2 :=
    fun l e he => get?_eq_some_iff.2 he
  apply eq_of_entries
  apply List.ext_getElem?
  intro i
  have hkey : (m.entries[i]?).map Prod.fst = (n.entries[i]?).map Prod.fst := by
    have h := congrArg (·[i]?) hkeys
    simpa [keys] using h
  cases hm : m.entries[i]? with
  | none =>
    cases hn : n.entries[i]? with
    | none => rfl
    | some f => simp [hm, hn] at hkey
  | some e =>
    cases hn : n.entries[i]? with
    | none => simp [hm, hn] at hkey
    | some f =>
      have hfst : e.1 = f.1 := by simpa [hm, hn] using hkey
      have he := hentry m e (List.mem_of_getElem? hm)
      have hf := hentry n f (List.mem_of_getElem? hn)
      rw [hget, hfst, hf] at he
      rw [Option.some_inj]
      exact Prod.ext hfst (Option.some.inj he).symm

theorem eq_of_keys_prefix {m n : OrderedMap κ α} (hkeys : m.keys <+: n.keys)
    (hget : ∀ key, n.get? key = m.get? key) : n = m := by
  obtain ⟨added, hadded⟩ := hkeys
  have hnone : added = [] := by
    rw [List.eq_nil_iff_forall_not_mem]
    intro key hmem
    have hnd := n.nodup_keys
    rw [← hadded, List.nodup_append] at hnd
    have hlarger : key ∈ n.keys := by
      rw [← hadded]
      exact List.mem_append_right _ hmem
    obtain ⟨value, hvalue⟩ := exists_get?_of_mem hlarger
    rw [hget] at hvalue
    exact hnd.2.2 key (mem_keys_of_get? hvalue) key hmem rfl
  rw [hnone, List.append_nil] at hadded
  exact eq_of_keys hadded.symm hget

/-- Steps that add at most one key each list the keys in the order in which they first come. -/
theorem keys_foldl {β : Type} {step : OrderedMap κ α → β → OrderedMap κ α} {adds : β → Bool}
    {keyOf : β → κ}
    (hstep : ∀ m b, (step m b).keys =
      if adds b then if keyOf b ∈ m.keys then m.keys else m.keys ++ [keyOf b] else m.keys)
    (items : List β) (m : OrderedMap κ α) :
    (items.foldl step m).keys =
      m.keys ++ (((items.filter adds).map keyOf).filter (· ∉ m.keys)).eraseDups := by
  induction items generalizing m with
  | nil => simp
  | cons b rest ih =>
    rw [List.foldl_cons, ih, hstep]
    by_cases hadds : adds b = true
    · rw [if_pos hadds, List.filter_cons_of_pos hadds, List.map_cons]
      by_cases hmem : keyOf b ∈ m.keys
      · simp [hmem]
      · simp only [hmem, if_false, not_false_eq_true, decide_true, List.filter_cons_of_pos,
          List.eraseDups_cons, List.filter_filter, List.append_assoc, List.singleton_append]
        congr 3
        apply List.filter_congr
        intro other _
        by_cases ho : other = keyOf b <;> simp [ho]
    · rw [if_neg hadds, List.filter_cons_of_neg hadds]

theorem entries_insertNew (m : OrderedMap κ α) (key : κ) (value : α) :
    (m.insertNew key value).entries =
      if key ∈ m.keys then m.entries else m.entries ++ [(key, value)] := by
  unfold insertNew
  split
  · next h => rw [if_pos (contains_iff.1 h)]
  · next h =>
    have hk : key ∉ m.keys := fun hk => h (contains_iff.2 hk)
    rw [if_neg hk]
    exact place_of_not_mem value hk

/-- Of the entries with one key the first counts, unless the map has the key already. -/
theorem entries_foldl_insertNew (items : List (κ × α)) (m : OrderedMap κ α) :
    (items.foldl (fun m e => m.insertNew e.1 e.2) m).entries =
      m.entries ++ (items.filter (·.1 ∉ m.keys)).eraseDupsBy (·.1 = ·.1) := by
  induction items generalizing m with
  | nil => simp
  | cons e rest ih =>
    rw [List.foldl_cons, ih, keys_insertNew, entries_insertNew]
    by_cases hmem : e.1 ∈ m.keys
    · simp [hmem]
    · rw [if_neg hmem, if_neg hmem, List.filter_cons_of_pos (by simpa using hmem),
        List.eraseDupsBy_cons, List.filter_filter, List.append_assoc, List.singleton_append]
      congr 3
      apply List.filter_congr
      intro other _
      by_cases ho : other.1 = e.1 <;> simp [ho, hmem]

end InteropWitness.OrderedMap

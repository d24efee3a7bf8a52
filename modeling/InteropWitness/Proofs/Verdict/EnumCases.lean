import InteropWitness.Proofs.OrderedMap
import InteropWitness.Proofs.Verdict.Token

namespace InteropWitness.EnumCases

open Text.Bracketed

def table (e : EnumCases) : OrderedMap String Int64 := ⟨e.cases, e.nodup⟩

/-- The value after a call: a case that is refused changes nothing. -/
def call (e : EnumCases) (c : String × Int64) : EnumCases :=
  (e.addCase c.1 c.2).toOption.getD e

/-- The value that calls leave, one after the other. -/
def afterCalls (isScoped : Bool) (calls : List (String × Int64)) : EnumCases :=
  calls.foldl call (empty isScoped)

theorem keys_table (e : EnumCases) : e.table.keys = e.payload := rfl

theorem addCase_eq_error_iff {e : EnumCases} {name : String} {value : Int64}
    {conflict : CaseConflict} :
    e.addCase name value = .error conflict ↔
      ∃ old, (name, old) ∈ e.cases ∧ old ≠ value ∧ conflict = ⟨name, old, value⟩ := by
  have hmem : ∀ old, (name, old) ∈ e.cases ↔ e.cases.lookup name = some old :=
    fun old => (@OrderedMap.get?_eq_some_iff _ _ _ e.table name old).symm
  simp only [hmem]
  unfold addCase
  split
  · next hnone => simp [hnone]
  · next old hsome =>
    rw [hsome]
    split
    · next hsame => simp [hsame]
    · next hother =>
      constructor
      · intro h
        cases h
        exact ⟨old, rfl, hother, rfl⟩
      · rintro ⟨other, hsome, _, rfl⟩
        cases hsome
        rfl

theorem table_call (e : EnumCases) (c : String × Int64) :
    (e.call c).table = e.table.insertNew c.1 c.2 := by
  apply OrderedMap.eq_of_entries
  rw [OrderedMap.entries_insertNew, call, addCase]
  split
  · next hnone =>
    rw [if_neg (e.table.get?_eq_none_iff.1 hnone)]
    rfl
  · next old hsome =>
    rw [if_pos (e.table.mem_keys_of_get? hsome)]
    by_cases hsame : old = c.2
    · rw [if_pos hsame]
      rfl
    · rw [if_neg hsame]
      rfl

theorem isScoped_call (e : EnumCases) (c : String × Int64) : (e.call c).isScoped = e.isScoped := by
  rw [call, addCase]
  split
  · rfl
  · split <;> rfl

theorem isScoped_afterCalls (isScoped : Bool) (calls : List (String × Int64)) :
    (afterCalls isScoped calls).isScoped = isScoped := by
  have hkept : ∀ e : EnumCases, (calls.foldl call e).isScoped = e.isScoped := by
    induction calls with
    | nil => exact fun _ => rfl
    | cons c rest ih => exact fun e => (ih (e.call c)).trans (isScoped_call e c)
  exact hkept (empty isScoped)

/-- The first call of each name, in the order of the calls, is what is left of them. -/
theorem cases_afterCalls (isScoped : Bool) (calls : List (String × Int64)) :
    (afterCalls isScoped calls).cases = calls.eraseDupsBy (·.1 = ·.1) := by
  have htable : (afterCalls isScoped calls).table =
      calls.foldl (fun m c => m.insertNew c.1 c.2) (empty isScoped).table :=
    (List.foldl_hom table fun e c => (table_call e c).symm).symm
  have hnew : ∀ c ∈ calls, decide (c.1 ∉ (empty isScoped).table.keys) = true :=
    fun _ _ => decide_eq_true List.not_mem_nil
  have hentries := congrArg OrderedMap.entries htable
  rw [OrderedMap.entries_foldl_insertNew, List.filter_eq_self.2 hnew] at hentries
  exact hentries

theorem call_of_error {e : EnumCases} {c : String × Int64} {conflict : CaseConflict}
    (h : e.addCase c.1 c.2 = .error conflict) : e.call c = e := by
  rw [call, h]
  rfl

theorem mem_payload_of_addCase {e next : EnumCases} {name s : String} {value : Int64}
    (h : e.addCase name value = .ok next) (hs : s ∈ next.payload) : s ∈ e.payload ∨ s = name := by
  have hcall : e.call (name, value) = next := by
    rw [call, h]
    rfl
  rw [← hcall, ← keys_table, table_call, OrderedMap.keys_insertNew] at hs
  split at hs
  · exact Or.inl hs
  · rw [List.mem_append, List.mem_singleton] at hs
    exact hs

theorem mem_payload_of_addFields {e read : EnumCases} {fields : List String}
    (h : e.addFields fields = some (.ok read)) :
    ∀ s ∈ read.payload, s ∈ e.payload ∨ s ∈ fields := by
  fun_induction addFields e fields with
  | case1 e =>
    cases h
    exact fun s hs => Or.inl hs
  | case2 => cases h
  | case3 => cases h
  | case4 => cases h
  | case5 e name value rest word hword next hnext ih =>
    intro s hs
    rcases ih h s hs with hbefore | hrest
    · rcases mem_payload_of_addCase hnext hbefore with hbefore | rfl
      · exact Or.inl hbefore
      · exact Or.inr List.mem_cons_self
    · exact Or.inr (List.mem_cons_of_mem _ (List.mem_cons_of_mem _ hrest))

theorem whole_of_read? {token : String} {e : EnumCases} (h : read? token = some (.ok e)) :
    ∀ s ∈ e.payload, Whole s := by
  unfold read? at h
  split at h
  · next head fields hdecode =>
    obtain ⟨isScoped, _, hfields⟩ := Option.bind_eq_some_iff.1 h
    split at hfields
    · intro s hs
      rcases mem_payload_of_addFields hfields s hs with hnew | hmem
      · exact absurd hnew List.not_mem_nil
      · exact whole_of_mem_decode? hdecode (List.mem_cons_of_mem _ hmem)
    · cases hfields
  · cases h

theorem ofToken?_eq_some_iff {token : String} {e : EnumCases} :
    ofToken? token = some e ↔ read? token = some (.ok e) := by
  rw [ofToken?]
  split
  · next read hread => simp [hread]
  · next hnone => simpa using fun h => hnone e h

/-- For every scoping and all calls: the names stay distinct, and the cases are the first call of
each name in the order of the calls. A call is refused exactly for a name that has another value,
and then changes nothing. A value is read back from its token exactly if no name holds the
separator; and whatever a token is read as, however its values are spelled and repeated, is read
back from a token of its own. -/
theorem added_cases_read_back :
    (∀ (isScoped : Bool) (calls : List (String × Int64)),
      (afterCalls isScoped calls).isScoped = isScoped ∧
      (afterCalls isScoped calls).payload.Nodup ∧
      (afterCalls isScoped calls).cases = calls.eraseDupsBy (·.1 = ·.1)) ∧
    (∀ (e : EnumCases) (name : String) (value : Int64) (conflict : CaseConflict),
      (e.addCase name value = .error conflict ↔
        ∃ old, (name, old) ∈ e.cases ∧ old ≠ value ∧ conflict = ⟨name, old, value⟩) ∧
      (e.addCase name value = .error conflict → e.call (name, value) = e)) ∧
    (∀ e : EnumCases, ofToken? e.token = some e ↔ ∀ name ∈ e.payload, Whole name) ∧
    ∀ (token : String) (e : EnumCases), read? token = some (.ok e) →
      read? e.token = some (.ok e) ∧ e.payload.Nodup := by
  refine ⟨?_, ?_, ?_, ?_⟩
  · intro isScoped calls
    exact ⟨isScoped_afterCalls isScoped calls, (afterCalls isScoped calls).nodup,
      cases_afterCalls isScoped calls⟩
  · intro e name value conflict
    exact ⟨addCase_eq_error_iff, fun h => call_of_error h⟩
  · intro e
    exact ⟨fun h => whole_of_read? (ofToken?_eq_some_iff.1 h), ofToken?_token⟩
  · intro token e h
    exact ⟨read?_token (whole_of_read? h), e.nodup⟩

/-- Names that end in a comma, that are empty and that begin with a blank, and a conflict. -/
def commaCalls : List (String × Int64) :=
  [("Red,", 0), ("", -9223372036854775808), ("Red,", 1), (" Blue", 7), ("", -9223372036854775808)]

theorem commaCalls_read_back :
    (afterCalls false commaCalls).cases =
        [("Red,", 0), ("", -9223372036854775808), (" Blue", 7)] ∧
      (afterCalls false commaCalls).addCase "Red," 1 = .error ⟨"Red,", 0, 1⟩ ∧
      (afterCalls false commaCalls).call ("Red,", 1) = afterCalls false commaCalls ∧
      ofToken? (afterCalls false commaCalls).token = some (afterCalls false commaCalls) ∧
      ∃ e, read? "[scoped,, A,, +7,, B,, 007,, A,, 7]" = some (.ok e) ∧
        e.token = "[scoped,, A,, 7,, B,, 7]" ∧ read? e.token = some (.ok e) ∧ e.payload.Nodup := by
  obtain ⟨hcalls, hrefused, htoken, hread⟩ := added_cases_read_back
  have hcases := (hcalls false commaCalls).2.2
  have hkept : commaCalls.eraseDupsBy (·.1 = ·.1) =
      [("Red,", 0), ("", -9223372036854775808), (" Blue", 7)] := by decide
  rw [hkept] at hcases
  have hconflict : (afterCalls false commaCalls).addCase "Red," 1 = .error ⟨"Red,", 0, 1⟩ :=
    (hrefused _ _ _ _).1.2 ⟨0, by simp [hcases], by decide, rfl⟩
  have hwhole : ∀ name ∈ (afterCalls false commaCalls).payload, Whole name := by
    rw [payload, hcases]
    decide
  let e : EnumCases := ⟨true, [("A", 7), ("B", 7)], by decide⟩
  have he : read? "[scoped,, A,, +7,, B,, 007,, A,, 7]" = some (.ok e) :=
    ofToken?_eq_some_iff.1 (by decide +kernel)
  have htext : e.token = "[scoped,, A,, 7,, B,, 7]" := by decide +kernel
  exact ⟨hcases, hconflict, (hrefused _ _ _ _).2 hconflict, (htoken _).2 hwhole, e, he, htext,
    hread _ e he⟩

end InteropWitness.EnumCases

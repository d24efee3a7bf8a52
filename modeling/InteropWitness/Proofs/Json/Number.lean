import InteropWitness.Json.Parser
import InteropWitness.Proofs.Text.Encodings

namespace InteropWitness.Json

/-- A number that stands before the text ends there. -/
def Delimited (text : List Char) : Prop :=
  ∀ c ∈ text.head?, c.isDigit = false ∧ c ≠ '.' ∧ c ≠ 'e' ∧ c ≠ 'E'

theorem digits?_append {digits after : List Char} (hne : digits ≠ [])
    (hdigits : ∀ c ∈ digits, c.isDigit = true) (hafter : ∀ c ∈ after.head?, c.isDigit = false) :
    digits? (digits ++ after) = some (digits, after) := by
  have hend : after.takeWhile Char.isDigit = [] ∧ after.dropWhile Char.isDigit = after := by
    cases after with
    | nil => exact ⟨rfl, rfl⟩
    | cons c rest => simp [hafter c rfl]
  have htake : (digits ++ after).takeWhile Char.isDigit = digits := by
    rw [List.takeWhile_append_of_pos hdigits, hend.1, List.append_nil]
  have hdrop : (digits ++ after).dropWhile Char.isDigit = after := by
    rw [List.dropWhile_append_of_pos hdigits, hend.2]
  unfold digits?
  rw [htake, hdrop]
  split
  · exact absurd rfl hne
  · rfl

theorem digits?_toDigits_append {after : List Char} (hafter : ∀ c ∈ after.head?, c.isDigit = false)
    (n : Nat) : digits? (Nat.toDigits 10 n ++ after) = some (Nat.toDigits 10 n, after) :=
  digits?_append Nat.toDigits_ne_nil
    (fun _ hc => Nat.isDigit_of_mem_toDigits (by decide) (by decide) hc) hafter

theorem digitsValue_toDigits (n : Nat) : digitsValue (Nat.toDigits 10 n) = n := by
  have hfold : digitsValue (Nat.toDigits 10 n) = Nat.ofDigitChars 10 (Nat.toDigits 10 n) 0 :=
    Nat.ofDigitChars_eq_foldl.symm
  rw [hfold, Nat.ofDigitChars_ten_toDigits]

theorem eq_zero_of_head?_toDigits {n : Nat} (h : (Nat.toDigits 10 n).head? = some '0') : n = 0 := by
  induction n using Nat.strongRecOn with
  | ind n ih =>
    by_cases hn : n < 10
    · have hdigit : ∀ d : Fin 10, some (Nat.digitChar d) = some '0' → d.val = 0 := by decide
      rw [Nat.toDigits_of_lt_base hn] at h
      exact hdigit ⟨n, hn⟩ h
    · have hbase : 10 ≤ n := Nat.le_of_not_lt hn
      rw [Nat.toDigits_of_base_le (by decide) hbase,
        List.head?_append, List.head?_eq_some_head Nat.toDigits_ne_nil, Option.some_or,
        ← List.head?_eq_some_head] at h
      have hzero := ih (n / 10) (by omega) h
      omega

namespace Number

/-- What is written for the digits after the point. -/
def fractionText : List (Fin 10) → List Char
  | [] => []
  | digits => '.' :: digits.map fun d => hexDigit d.val

def exponentText : Option Int → List Char
  | none => []
  | some e => 'e' :: (toString e).toList

theorem render_eq (n : Number) :
    n.render = (if n.negative then ['-'] else []) ++ Nat.toDigits 10 n.whole ++
      fractionText n.fraction ++ exponentText n.exponent := rfl

end Number

open Number

section Leaves

variable {after : List Char} (h : Delimited after)
include h

theorem exponent?_exponentText (exponent : Option Int) :
    exponent? (exponentText exponent ++ after) = some (exponent, after) := by
  have hafter : ∀ c ∈ after.head?, c.isDigit = false := fun c hc => (h c hc).1
  cases exponent with
  | none =>
    change exponent? after = some (none, after)
    cases after with
    | nil => rw [exponent?]
    | cons c rest =>
      obtain ⟨_, _, he, hE⟩ := h c rfl
      have hnone : ¬(c = 'e' ∨ c = 'E') := by simp [he, hE]
      simp only [exponent?, if_neg hnone]
  | some e =>
    cases e with
    | ofNat n =>
      have hdigits := digits?_toDigits_append hafter n
      obtain ⟨c, rest, hcons, hc⟩ := Text.Word64.exists_toDigits_eq_cons n
      have hvalue := digitsValue_toDigits n
      rw [exponentText, Text.Word64.toList_ofNat]
      rw [hcons] at hdigits hvalue ⊢
      rw [List.cons_append, exponent?, if_pos (Or.inl rfl), hdigits, Option.map_some]
      · simp only [hvalue]
        rfl
      · intro rest' he
        cases he
        exact absurd hc (by decide)
      · intro rest' he
        cases he
        exact absurd hc (by decide)
    | negSucc n =>
      have hdigits := digits?_toDigits_append hafter (n + 1)
      rw [exponentText, Text.Word64.toList_negSucc, List.cons_append, List.cons_append, exponent?,
        if_pos (Or.inl rfl)]
      simp only [hdigits, Option.map_some, digitsValue_toDigits]
      rfl

theorem head?_exponentText_append (exponent : Option Int) :
    ∀ c ∈ (exponentText exponent ++ after).head?, c.isDigit = false ∧ c ≠ '.' := by
  intro c hc
  cases exponent with
  | none => exact ⟨(h c hc).1, (h c hc).2.1⟩
  | some e =>
    cases hc
    decide

theorem fraction?_fractionText (digits : List (Fin 10)) (exponent : Option Int) :
    fraction? (fractionText digits ++ (exponentText exponent ++ after)) =
      some (digits, exponentText exponent ++ after) := by
  have hend := head?_exponentText_append h exponent
  generalize exponentText exponent ++ after = text at hend
  cases digits with
  | nil =>
    change fraction? text = some ([], text)
    cases text with
    | nil => rw [fraction?]; simp
    | cons c rest =>
      rw [fraction?]
      intro rest' he
      exact (hend c rfl).2 (List.cons.inj he).1
  | cons d rest =>
    have hdigit : ∀ d : Fin 10, (hexDigit d.val).isDigit = true ∧
        Fin.ofNat 10 (digitValue (hexDigit d.val)) = d := by decide
    have hall : ∀ c ∈ (d :: rest).map fun d => hexDigit d.val, c.isDigit = true := by
      intro c hc
      obtain ⟨d, _, rfl⟩ := List.mem_map.1 hc
      exact (hdigit d).1
    have hdigits := digits?_append (by simp) hall fun c hc => (hend c hc).1
    have hvalues : ((d :: rest).map fun d => hexDigit d.val).map
        (fun c => Fin.ofNat 10 (digitValue c)) = d :: rest := by
      rw [List.map_map]
      exact (List.map_congr_left fun d _ => (hdigit d).2).trans (List.map_id _)
    rw [fractionText, List.cons_append, fraction?, hdigits, Option.map_some]
    · simp only [hvalues]
    · simp

theorem magnitude?_render (n : Number) :
    magnitude? n.negative (Nat.toDigits 10 n.whole ++
      (fractionText n.fraction ++ (exponentText n.exponent ++ after))) = some (n, after) := by
  have hend : ∀ c ∈ (fractionText n.fraction ++ (exponentText n.exponent ++ after)).head?,
      c.isDigit = false := by
    intro c hc
    cases hfraction : n.fraction with
    | nil =>
      rw [hfraction] at hc
      exact (head?_exponentText_append h n.exponent c hc).1
    | cons d rest =>
      rw [hfraction] at hc
      cases hc
      decide
  have hdigits := digits?_toDigits_append hend n.whole
  have hzero : ¬((Nat.toDigits 10 n.whole).head? = some '0' ∧ Nat.toDigits 10 n.whole ≠ ['0']) := by
    intro hlead
    have hwhole := eq_zero_of_head?_toDigits hlead.1
    rw [hwhole] at hlead
    exact hlead.2 rfl
  simp only [magnitude?, hdigits, if_neg hzero, fraction?_fractionText h, exponent?_exponentText h,
    digitsValue_toDigits]

theorem number?_render (n : Number) : number? (n.render ++ after) = some (n, after) := by
  have hmagnitude := magnitude?_render h n
  rw [render_eq]
  simp only [List.append_assoc]
  cases hnegative : n.negative with
  | true =>
    rw [hnegative] at hmagnitude
    exact hmagnitude
  | false =>
    rw [hnegative] at hmagnitude
    obtain ⟨c, rest, hcons, hc⟩ := Text.Word64.exists_toDigits_eq_cons n.whole
    rw [hcons] at hmagnitude ⊢
    have hsign : c ≠ '-' := by
      intro hminus
      rw [hminus] at hc
      exact absurd hc (by decide)
    simp only [List.cons_append, Bool.false_eq_true, if_false, List.nil_append] at hmagnitude ⊢
    rw [number?]
    · exact hmagnitude
    · exact fun _ he => hsign (List.cons.inj he).1

end Leaves

theorem read?_of_numeral {c : Char} (hc : c = '-' ∨ c.isDigit = true) (text : List Char) :
    Token.read? (c :: text) =
      (number? (c :: text)).map fun (n, after) => (.number n, after) := by
  unfold Token.read?
  split
  case h_11 => rfl
  all_goals
    next heq =>
      cases heq
      exact absurd hc (by decide)

theorem exists_render_eq_cons (n : Number) :
    ∃ c rest, n.render = c :: rest ∧ (c = '-' ∨ c.isDigit = true) := by
  obtain ⟨c, rest, hcons, hc⟩ := Text.Word64.exists_toDigits_eq_cons n.whole
  rw [render_eq, hcons]
  cases n.negative with
  | true => exact ⟨'-', _, rfl, Or.inl rfl⟩
  | false => exact ⟨c, _, rfl, Or.inr hc⟩

theorem read?_render {after : List Char} (h : Delimited after) (n : Number) :
    Token.read? (n.render ++ after) = some (.number n, after) := by
  have hnumber := number?_render h n
  obtain ⟨c, rest, hcons, hc⟩ := exists_render_eq_cons n
  rw [hcons] at hnumber ⊢
  rw [List.cons_append] at hnumber ⊢
  rw [read?_of_numeral hc, hnumber, Option.map_some]

end InteropWitness.Json

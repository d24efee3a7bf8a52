import InteropWitness.Json.Parser
import Mathlib.Tactic.SplitIfs

namespace InteropWitness.Json

theorem hexDigit?_hexDigit {n : Nat} (h : n < 16) : hexDigit? (hexDigit n) = some n := by
  have hall : ∀ d : Fin 16, hexDigit? (hexDigit d) = some d.val := by decide
  exact hall ⟨n, h⟩

theorem unit?_hexDigits {n : Nat} (h : n < 0x20) :
    unit? '0' '0' (hexDigit (n / 16)) (hexDigit (n % 16)) = some n := by
  have hzero : hexDigit? '0' = some 0 := rfl
  simp only [unit?, hzero, hexDigit?_hexDigit (show n / 16 < 16 by omega),
    hexDigit?_hexDigit (show n % 16 < 16 by omega), Option.bind_eq_bind, Option.bind_some]
  exact congrArg some (by omega)

theorem spell?_unit {n : Nat} (h : n < 0xD800) (pieces : List Piece) :
    spell? (.unit n :: pieces) = (spell? pieces).map (Char.ofNat n :: ·) := by
  have hhigh : isHighSurrogate n = false := by
    simp only [isHighSurrogate, Bool.and_eq_false_iff, decide_eq_false_iff_not]
    omega
  have hlow : isLowSurrogate n = false := by
    simp only [isLowSurrogate, Bool.and_eq_false_iff, decide_eq_false_iff_not]
    omega
  cases pieces with
  | nil => simp [spell?, hhigh, hlow]
  | cons p rest => cases p <;> simp [spell?, hhigh, hlow]

theorem pieces?_unit {a b c d : Char} {n : Nat} {text after : List Char} {pieces : List Piece}
    (hn : unit? a b c d = some n) (h : pieces? text = some (pieces, after)) :
    pieces? ('\\' :: 'u' :: a :: b :: c :: d :: text) = some (.unit n :: pieces, after) := by
  rw [pieces?, hn, h]

theorem pieces?_escaped {letter c : Char} {text after : List Char} {pieces : List Piece}
    (hc : escaped? letter = some c) (h : pieces? text = some (pieces, after)) :
    pieces? ('\\' :: letter :: text) = some (.char c :: pieces, after) := by
  have hu : letter ≠ 'u' := by
    intro hu
    have hnone : escaped? 'u' = none := rfl
    rw [hu, hnone] at hc
    cases hc
  rw [pieces?]
  · rw [hc, h]
  · intro a b c d rest he
    exact absurd he hu

theorem pieces?_plain {c : Char} {text after : List Char} {pieces : List Piece} (hquote : c ≠ '"')
    (hslash : c ≠ '\\') (hspace : ¬c.toNat < 0x20) (h : pieces? text = some (pieces, after)) :
    pieces? (c :: text) = some (.char c :: pieces, after) := by
  rw [pieces?, h, if_neg]
  · simp [hslash, hspace]
  all_goals simp [hquote, hslash]

/-- What is written for a character is read as one piece that spells it. -/
theorem pieces?_escape (c : Char) {text after : List Char} {pieces : List Piece}
    (h : pieces? text = some (pieces, after)) :
    ∃ p, pieces? (escape c ++ text) = some (p :: pieces, after) ∧
      spell? (p :: pieces) = (spell? pieces).map (c :: ·) := by
  have hshort : ∀ letter, escaped? letter = some c →
      ∃ p, pieces? (['\\', letter] ++ text) = some (p :: pieces, after) ∧
        spell? (p :: pieces) = (spell? pieces).map (c :: ·) :=
    fun letter hletter => ⟨.char c, pieces?_escaped hletter h, by rw [spell?]⟩
  unfold escape
  split_ifs with h1 h2 h3 h4 h5 h6 h7 hcontrol
  · exact hshort '"' (by rw [h1]; rfl)
  · exact hshort '\\' (by rw [h2]; rfl)
  · exact hshort 'b' (by rw [h3]; rfl)
  · exact hshort 'f' (by rw [h4]; rfl)
  · exact hshort 'n' (by rw [h5]; rfl)
  · exact hshort 'r' (by rw [h6]; rfl)
  · exact hshort 't' (by rw [h7]; rfl)
  · refine ⟨.unit c.toNat, pieces?_unit (unit?_hexDigits hcontrol) h, ?_⟩
    rw [spell?_unit (by omega), Char.ofNat_toNat]
  · exact ⟨.char c, pieces?_plain h1 h2 hcontrol h, by rw [spell?]⟩

theorem pieces?_flatMap_escape (text after : List Char) :
    ∃ pieces, pieces? (text.flatMap escape ++ '"' :: after) = some (pieces, after) ∧
      spell? pieces = some text := by
  induction text with
  | nil => exact ⟨[], by rw [List.flatMap_nil, List.nil_append, pieces?], by rw [spell?]⟩
  | cons c rest ih =>
    obtain ⟨pieces, hpieces, hspell⟩ := ih
    obtain ⟨p, hp, hspells⟩ := pieces?_escape c hpieces
    refine ⟨p :: pieces, ?_, ?_⟩
    · rw [List.flatMap_cons, List.append_assoc, hp]
    · rw [hspells, hspell, Option.map_some]

theorem read?_quote (text : List Char) :
    Token.read? ('"' :: text) = (pieces? text).map fun (pieces, after) =>
      (.string ((spell? pieces).map String.ofList), after) := by
  rw [Token.read?]

theorem read?_quoted (text : Option String) (after : List Char) :
    Token.read? (quoted text ++ after) = some (.string text, after) := by
  cases text with
  | none =>
    have hhalf : unit? 'd' '8' '0' '0' = some 0xD800 := by decide
    have hend : pieces? ('"' :: after) = some ([], after) := by rw [pieces?]
    change Token.read? ('"' :: '\\' :: 'u' :: 'd' :: '8' :: '0' :: '0' :: '"' :: after) = _
    rw [read?_quote, pieces?_unit hhalf hend]
    rfl
  | some s =>
    obtain ⟨pieces, hpieces, hspell⟩ := pieces?_flatMap_escape s.toList after
    have hquoted : quoted (some s) ++ after = '"' :: (s.toList.flatMap escape ++ '"' :: after) := by
      simp [quoted]
    rw [hquoted, read?_quote, hpieces, Option.map_some]
    simp only [hspell, Option.map_some, String.ofList_toList]

end InteropWitness.Json

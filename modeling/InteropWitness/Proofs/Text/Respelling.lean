import InteropWitness.Proofs.Text.Search

namespace InteropWitness.Text

/-- The second text is the first with words in the place of words that they may be swapped for. -/
inductive Respelled (swap : List Char → List Char → Prop) : List Char → List Char → Prop
  | nil : Respelled swap [] []
  | char (c : Char) {s t : List Char} (rest : Respelled swap s t) : Respelled swap (c :: s) (c :: t)
  | word {v w s t : List Char} (hw : swap v w) (rest : Respelled swap s t) :
      Respelled swap (v ++ s) (w ++ t)

/-- A word without any of the marks. -/
structure Free (isMark : Char → Bool) (word : List Char) : Prop where
  nonempty : word ≠ []
  unmarked : ∀ c ∈ word, isMark c = false

namespace Free

variable {isMark : Char → Bool} {word : List Char}

theorem reverse (h : Free isMark word) : Free isMark word.reverse :=
  ⟨fun hnil => h.nonempty (List.reverse_eq_nil_iff.1 hnil),
    fun c hc => h.unmarked c (List.mem_reverse.1 hc)⟩

theorem mono {isMark' : Char → Bool} (h : Free isMark word)
    (hsub : ∀ c, isMark' c = true → isMark c = true) : Free isMark' word := by
  refine ⟨h.nonempty, fun c hc => Bool.eq_false_iff.2 fun hmark => ?_⟩
  have hboth := hsub c hmark
  rw [h.unmarked c hc] at hboth
  cases hboth

theorem not_mem (h : Free isMark word) {c : Char} (hc : isMark c = true) : c ∉ word := by
  intro hmem
  rw [h.unmarked c hmem] at hc
  cases hc

theorem exists_cons (h : Free isMark word) :
    ∃ c rest, word = c :: rest ∧ isMark c = false := by
  obtain ⟨c, rest, rfl⟩ := List.exists_cons_of_ne_nil h.nonempty
  exact ⟨c, rest, rfl, h.unmarked c List.mem_cons_self⟩

theorem dropWhile_append (h : Free isMark word) (rest : List Char) :
    (word ++ rest).dropWhile isMark = word ++ rest := by
  obtain ⟨c, tail, rfl, hc⟩ := h.exists_cons
  rw [List.cons_append, List.dropWhile_cons, if_neg (Bool.eq_false_iff.1 hc)]

theorem head?_append_ne (h : Free isMark word) {c : Char} (hc : isMark c = true)
    (rest : List Char) : (word ++ rest).head? ≠ some c := by
  obtain ⟨d, tail, rfl, hd⟩ := h.exists_cons
  intro hhead
  rw [Option.some.inj hhead, hc] at hd
  cases hd

end Free

namespace Respelled

variable {swap : List Char → List Char → Prop} {s t : List Char}

theorem refl (s : List Char) : Respelled swap s s := by
  induction s with
  | nil => exact .nil
  | cons c _ ih => exact .char c ih

theorem append {s' t' : List Char} (h : Respelled swap s t) (h' : Respelled swap s' t') :
    Respelled swap (s ++ s') (t ++ t') := by
  induction h with
  | nil => exact h'
  | char c _ ih => exact .char c ih
  | word hw _ ih =>
    rw [List.append_assoc, List.append_assoc]
    exact .word hw ih

theorem reverse (h : Respelled swap s t) :
    Respelled (fun v w => swap v.reverse w.reverse) s.reverse t.reverse := by
  induction h with
  | nil => exact .nil
  | char c _ ih =>
    rw [List.reverse_cons, List.reverse_cons]
    exact ih.append (.char c .nil)
  | @word v w _ _ hw _ ih =>
    rw [List.reverse_append, List.reverse_append]
    refine ih.append ?_
    have hlast : Respelled (fun v w => swap v.reverse w.reverse) (v.reverse ++ [])
        (w.reverse ++ []) := .word (by rwa [List.reverse_reverse, List.reverse_reverse]) .nil
    rwa [List.append_nil, List.append_nil] at hlast

section Marks

variable {isMark : Char → Bool} (hfree : ∀ v w, swap v w → Free isMark v ∧ Free isMark w)
include hfree

theorem head?_eq_iff (h : Respelled swap s t) {c : Char} (hc : isMark c = true) :
    s.head? = some c ↔ t.head? = some c := by
  cases h with
  | nil => rfl
  | char d _ => rfl
  | word hw _ =>
    obtain ⟨hv, hw⟩ := hfree _ _ hw
    exact iff_of_false (hv.head?_append_ne hc _) (hw.head?_append_ne hc _)

theorem eq_nil_iff (h : Respelled swap s t) : s = [] ↔ t = [] := by
  cases h with
  | nil => rfl
  | char c _ => exact iff_of_false (List.cons_ne_nil _ _) (List.cons_ne_nil _ _)
  | word hw _ =>
    obtain ⟨hv, hw⟩ := hfree _ _ hw
    exact iff_of_false (fun hnil => hv.nonempty (List.append_eq_nil_iff.1 hnil).1)
      (fun hnil => hw.nonempty (List.append_eq_nil_iff.1 hnil).1)

theorem dropWhile (h : Respelled swap s t) :
    Respelled swap (s.dropWhile isMark) (t.dropWhile isMark) := by
  induction h with
  | nil => exact .nil
  | char c rest ih =>
    rw [List.dropWhile_cons, List.dropWhile_cons]
    by_cases hc : isMark c = true
    · rw [if_pos hc, if_pos hc]
      exact ih
    · rw [if_neg hc, if_neg hc]
      exact .char c rest
  | word hw rest _ =>
    obtain ⟨hv, hw'⟩ := hfree _ _ hw
    rw [hv.dropWhile_append, hw'.dropWhile_append]
    exact .word hw rest

end Marks

theorem trim (hfree : ∀ v w, swap v w → Free isBlank v ∧ Free isBlank w)
    (h : Respelled swap s t) : Respelled swap (trim s) (trim t) := by
  have hfreeReverse : ∀ v w, swap v.reverse w.reverse → Free isBlank v ∧ Free isBlank w := by
    intro v w hw
    obtain ⟨hv, hw⟩ := hfree _ _ hw
    exact ⟨v.reverse_reverse ▸ hv.reverse, w.reverse_reverse ▸ hw.reverse⟩
  have hback := ((h.dropWhile hfree).reverse.dropWhile hfreeReverse).reverse
  simp only [List.reverse_reverse] at hback
  exact hback

end Respelled

section Replace

variable {word replacement : List Char}

theorem replaceAll_word (hword : word ≠ []) (rest : List Char) :
    replaceAll word replacement (word ++ rest) =
      replacement ++ replaceAll word replacement rest := by
  rw [replaceAll, splitOn_separator hword, replaceAll]
  obtain ⟨piece, pieces, hcons⟩ := List.exists_cons_of_ne_nil (splitOn_ne_nil word rest)
  rw [hcons, List.intercalate_cons_cons, List.nil_append]

theorem replaceAll_cons {c : Char} {rest : List Char} (h : ¬word <+: c :: rest) :
    replaceAll word replacement (c :: rest) = c :: replaceAll word replacement rest := by
  have hcut : splitOn word (c :: rest) = (splitOn word rest).modifyHead (c :: ·) := by
    rw [splitOn, piecesAfter, if_neg fun hp => h (List.isPrefixOf_iff_prefix.1 hp)]
    rfl
  rw [replaceAll, hcut, intercalate_modifyHead_cons replacement c (splitOn_ne_nil word rest),
    replaceAll]

/-- Replacing a word everywhere respells the text. -/
theorem respelled_replaceAll {swap : List Char → List Char → Prop} (hword : word ≠ [])
    (hswap : swap word replacement) (text : List Char) :
    Respelled swap text (replaceAll word replacement text) := by
  induction hlength : text.length using Nat.strongRecOn generalizing text with
  | ind n ih =>
    cases text with
    | nil => exact .nil
    | cons c rest =>
      by_cases hstarts : word <+: c :: rest
      · obtain ⟨after, hafter⟩ := hstarts
        rw [← hafter, replaceAll_word hword]
        refine .word hswap (ih after.length ?_ after rfl)
        have hpos := List.length_pos_iff.2 hword
        rw [← hlength, ← hafter, List.length_append]
        omega
      · rw [replaceAll_cons hstarts]
        refine .char c (ih rest.length ?_ rest rfl)
        rw [← hlength, List.length_cons]
        omega

end Replace

end InteropWitness.Text

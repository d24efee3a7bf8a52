import InteropWitness.Text
import Mathlib.Data.List.Basic

namespace InteropWitness.Text

theorem append_of_breakOn {word text before after : List Char}
    (h : breakOn word text = some (before, after)) : before ++ (word ++ after) = text := by
  induction text generalizing before with
  | nil =>
    rw [breakOn] at h
    split at h
    · next hword =>
      cases h
      rw [hword]
      rfl
    · cases h
  | cons c rest ih =>
    rw [breakOn] at h
    split at h
    · next found hfound =>
      cases h
      rw [List.nil_append, List.append_eq_of_isPrefixOf?_eq_some hfound]
    · obtain ⟨cut, hcut, heq⟩ := Option.map_eq_some_iff.1 h
      cases heq
      rw [List.cons_append, ih hcut]

theorem breakOn_eq_none_iff {word text : List Char} :
    breakOn word text = none ↔ ¬word <:+: text := by
  constructor
  · intro h hoccurs
    induction text with
    | nil => simp [breakOn, List.infix_nil.1 hoccurs] at h
    | cons c rest ih =>
      rw [breakOn] at h
      split at h
      · cases h
      · next hstarts =>
        rw [Option.map_eq_none_iff] at h
        rcases List.infix_cons_iff.1 hoccurs with hfirst | hrest
        · obtain ⟨after, hafter⟩ := hfirst
          rw [List.isPrefixOf?_eq_some_iff_append_eq.2 hafter] at hstarts
          cases hstarts
        · exact ih h hrest
  · intro h
    rw [Option.eq_none_iff_forall_ne_some]
    intro cut hcut
    exact h ⟨cut.1, cut.2, by rw [List.append_assoc, append_of_breakOn hcut]⟩

theorem upTo_eq_self {word text : List Char} (h : ¬word <:+: text) :
    upTo word text = text := by
  rw [upTo, breakOn_eq_none_iff.2 h]

/-- A word without the character does not reach across it. -/
theorem not_infix_append_cons {word left right : List Char} {c : Char} (hc : c ∉ word)
    (hleft : ¬word <:+: left) (hright : ¬word <:+: right) : ¬word <:+: left ++ c :: right := by
  have hstarts : ∀ left, ¬word <:+: left → ¬word <+: left ++ c :: right := by
    intro left hleft h
    by_cases hlength : word.length ≤ left.length
    · exact hleft (List.prefix_of_prefix_length_le h (List.prefix_append _ _) hlength).isInfix
    · obtain ⟨after, hafter⟩ := h
      have hat : (left ++ c :: right)[left.length]? = some c := by simp
      rw [← hafter, List.getElem?_append_left (by omega)] at hat
      exact hc (List.mem_of_getElem? hat)
  induction left with
  | nil =>
    rw [List.nil_append, List.infix_cons_iff, not_or]
    exact ⟨hstarts [] hleft, hright⟩
  | cons d left ih =>
    have hrest : ¬word <:+: left := fun h => hleft (List.infix_cons_iff.2 (Or.inr h))
    rw [List.cons_append, List.infix_cons_iff, not_or]
    exact ⟨hstarts (d :: left) hleft, ih hrest⟩

/-- Nothing that the word starts with is what it ends with, apart from the whole word. -/
def Unbordered (word : List Char) : Prop :=
  ∀ border, border ≠ [] → border <+: word → border <:+ word → border = word

instance (word : List Char) : Decidable (Unbordered word) :=
  decidable_of_iff (∀ n < word.length, n ≠ 0 → ¬word.take n <:+ word) <| by
    constructor
    · intro h border hne hstarts hends
      have hlength := hstarts.length_le
      rw [List.prefix_iff_eq_take.1 hstarts] at hends
      by_cases hshort : border.length < word.length
      · exact absurd hends (h border.length hshort (by simpa using hne))
      · exact hstarts.eq_of_length (by omega)
    · intro h n hn hpos hends
      have hwhole : word.take n = word := by
        refine h (word.take n) ?_ (List.take_prefix n word) hends
        intro hnil
        rw [List.take_eq_nil_iff] at hnil
        rcases hnil with rfl | rfl
        · exact hpos rfl
        · cases hn
      have hlength := congrArg List.length hwhole
      rw [List.length_take] at hlength
      omega

variable {separator : List Char}

/-- A separator that does not end as it starts cannot reach from a piece into the separator behind
it: what it holds of the latter would be a border. -/
theorem not_prefix_append {piece rest : List Char} (hword : Unbordered separator)
    (hpiece : piece ≠ []) (h : ¬separator <:+: piece) :
    ¬separator <+: piece ++ (separator ++ rest) := by
  intro hstarts
  by_cases hlength : separator.length ≤ piece.length
  · exact h (List.prefix_of_prefix_length_le hstarts (List.prefix_append piece _) hlength).isInfix
  · have hover : piece <+: separator :=
      List.prefix_of_prefix_length_le (List.prefix_append piece _) hstarts (by omega)
    obtain ⟨border, rfl⟩ := hover
    have hborder : border <+: piece ++ border :=
      List.prefix_of_prefix_length_le ((List.prefix_append_right_inj piece).1 hstarts)
        (List.prefix_append _ rest) (by simp)
    have hne : border ≠ [] := by
      rintro rfl
      simp at hlength
    have hwhole := hword border hne hborder (List.suffix_append piece border)
    exact hpiece (List.append_left_eq_self.1 hwhole.symm)

theorem piecesAfter_append (separator : List Char) (passed rest : List Char) :
    piecesAfter separator passed.length (passed ++ rest) = splitOn separator rest := by
  induction passed with
  | nil => rfl
  | cons c passed ih => exact ih

theorem splitOn_separator (h : separator ≠ []) (rest : List Char) :
    splitOn separator (separator ++ rest) = [] :: splitOn separator rest := by
  have hstarts : separator.isPrefixOf (separator ++ rest) = true :=
    List.isPrefixOf_iff_prefix.2 (List.prefix_append _ _)
  cases separator with
  | nil => exact absurd rfl h
  | cons c tail =>
    rw [List.cons_append] at hstarts ⊢
    rw [splitOn, piecesAfter, if_pos hstarts, List.length_cons, Nat.add_sub_cancel,
      piecesAfter_append]

/-- The first piece of a text ends where the separator first stands. -/
theorem splitOn_append (hword : Unbordered separator) {piece : List Char}
    (h : ¬separator <:+: piece) (rest : List Char) :
    splitOn separator (piece ++ (separator ++ rest)) = piece :: splitOn separator rest := by
  induction piece with
  | nil =>
    have hne : separator ≠ [] := by
      rintro rfl
      exact h List.infix_rfl
    exact splitOn_separator hne rest
  | cons c piece ih =>
    have hstarts : ¬separator.isPrefixOf (c :: (piece ++ (separator ++ rest))) :=
      fun hp => not_prefix_append hword (List.cons_ne_nil c piece) h
        (List.isPrefixOf_iff_prefix.1 hp)
    rw [List.infix_cons_iff, not_or] at h
    rw [List.cons_append, splitOn, piecesAfter, if_neg hstarts]
    exact congrArg (List.modifyHead (c :: ·)) (ih h.2)

theorem splitOn_eq_singleton {separator piece : List Char} (h : ¬separator <:+: piece) :
    splitOn separator piece = [piece] := by
  induction piece with
  | nil => rfl
  | cons c piece ih =>
    rw [List.infix_cons_iff, not_or] at h
    rw [splitOn, piecesAfter, if_neg fun hp => h.1 (List.isPrefixOf_iff_prefix.1 hp)]
    exact congrArg (List.modifyHead (c :: ·)) (ih h.2)

/-- Pieces that the separator does not occur in are found again when they are joined by it. -/
theorem splitOn_intercalate (hword : Unbordered separator) {pieces : List (List Char)}
    (hpieces : pieces ≠ []) (h : ∀ piece ∈ pieces, ¬separator <:+: piece) :
    splitOn separator (separator.intercalate pieces) = pieces := by
  induction pieces with
  | nil => exact absurd rfl hpieces
  | cons piece rest ih =>
    rw [List.forall_mem_cons] at h
    cases rest with
    | nil =>
      rw [List.intercalate_singleton]
      exact splitOn_eq_singleton h.1
    | cons next rest =>
      rw [List.intercalate_cons_cons, List.append_assoc, splitOn_append hword h.1,
        ih (List.cons_ne_nil next rest) h.2]

theorem piecesAfter_ne_nil (separator : List Char) (skip : Nat) (text : List Char) :
    piecesAfter separator skip text ≠ [] := by
  fun_induction piecesAfter separator skip text with
  | case1 => exact List.cons_ne_nil _ _
  | case2 skip c rest ih => exact ih
  | case3 => exact List.cons_ne_nil _ _
  | case4 c rest hstarts ih => exact fun h => ih (List.modifyHead_eq_nil_iff.1 h)

theorem splitOn_ne_nil (separator text : List Char) : splitOn separator text ≠ [] :=
  piecesAfter_ne_nil separator 0 text

theorem intercalate_modifyHead_cons (separator : List Char) (c : Char)
    {pieces : List (List Char)} (h : pieces ≠ []) :
    separator.intercalate (pieces.modifyHead (c :: ·)) = c :: separator.intercalate pieces := by
  match pieces, h with
  | [piece], _ => simp
  | piece :: next :: rest, _ => simp [List.intercalate_cons_cons]

/-- Joining the pieces gives the text back, less the characters that were to be passed over. -/
theorem intercalate_piecesAfter {separator : List Char} (h : separator ≠ []) (skip : Nat)
    (text : List Char) :
    separator.intercalate (piecesAfter separator skip text) = text.drop skip := by
  fun_induction piecesAfter separator skip text with
  | case1 skip => simp
  | case2 skip c rest ih => exact ih
  | case3 c rest hstarts ih =>
    obtain ⟨after, hafter⟩ := List.isPrefixOf_iff_prefix.1 hstarts
    obtain ⟨d, tail, rfl⟩ := List.exists_cons_of_ne_nil h
    obtain ⟨next, pieces, hpieces⟩ := List.exists_cons_of_ne_nil
      (piecesAfter_ne_nil (d :: tail) ((d :: tail).length - 1) rest)
    have hrest : rest = tail ++ after := by
      simpa using (List.cons.inj hafter).2.symm
    rw [hpieces] at ih ⊢
    rw [List.intercalate_cons_cons, List.nil_append, ih, List.drop_zero, ← hafter, hrest]
    simp
  | case4 c rest hstarts ih =>
    rw [intercalate_modifyHead_cons separator c (piecesAfter_ne_nil separator 0 rest), ih]
    rfl

theorem intercalate_splitOn {separator : List Char} (h : separator ≠ []) (text : List Char) :
    separator.intercalate (splitOn separator text) = text :=
  intercalate_piecesAfter h 0 text

theorem prefix_intercalate_cons (separator piece : List Char) (rest : List (List Char)) :
    piece <+: separator.intercalate (piece :: rest) := by
  cases rest with
  | nil => simp
  | cons next rest =>
    rw [List.intercalate_cons_cons, List.append_assoc]
    exact List.prefix_append _ _

theorem infix_intercalate_of_mem {separator piece : List Char} {pieces : List (List Char)}
    (h : piece ∈ pieces) : piece <:+: separator.intercalate pieces := by
  induction pieces with
  | nil => cases h
  | cons first rest ih =>
    rcases List.mem_cons.1 h with rfl | hrest
    · exact (prefix_intercalate_cons separator piece rest).isInfix
    · obtain ⟨next, others, rfl⟩ := List.exists_cons_of_ne_nil (List.ne_nil_of_mem hrest)
      rw [List.intercalate_cons_cons]
      exact (ih hrest).trans (List.suffix_append _ _).isInfix

/-- A cut is made at the first place where the separator stands, so no piece holds one. -/
theorem not_infix_of_mem_piecesAfter {separator : List Char} (h : separator ≠ []) {skip : Nat}
    {text piece : List Char} (hpiece : piece ∈ piecesAfter separator skip text) :
    ¬separator <:+: piece := by
  fun_induction piecesAfter separator skip text generalizing piece with
  | case1 skip =>
    rw [List.mem_singleton.1 hpiece]
    exact fun hoccurs => h (List.infix_nil.1 hoccurs)
  | case2 skip c rest ih => exact ih hpiece
  | case3 c rest hstarts ih =>
    rcases List.mem_cons.1 hpiece with rfl | hmem
    · exact fun hoccurs => h (List.infix_nil.1 hoccurs)
    · exact ih hmem
  | case4 c rest hstarts ih =>
    obtain ⟨first, others, hpieces⟩ :=
      List.exists_cons_of_ne_nil (piecesAfter_ne_nil separator 0 rest)
    have hfirst : first <+: rest := by
      have hrest := intercalate_splitOn h rest
      rw [splitOn, hpieces] at hrest
      exact hrest ▸ prefix_intercalate_cons separator first others
    rw [hpieces, List.modifyHead_cons] at hpiece
    rcases List.mem_cons.1 hpiece with rfl | hmem
    · rw [List.infix_cons_iff, not_or]
      constructor
      · intro hoccurs
        exact hstarts (List.isPrefixOf_iff_prefix.2
          (hoccurs.trans ((List.prefix_cons_inj c).2 hfirst)))
      · exact ih (hpieces ▸ List.mem_cons_self)
    · exact ih (hpieces ▸ List.mem_cons_of_mem first hmem)

theorem not_infix_of_mem_splitOn {separator : List Char} (h : separator ≠ [])
    {text piece : List Char} (hpiece : piece ∈ splitOn separator text) : ¬separator <:+: piece :=
  not_infix_of_mem_piecesAfter h hpiece

/-- The word that was put in is cut out again where the other one stood. -/
theorem splitOn_replaceAll {word replacement text : List Char} (hword : word ≠ [])
    (hunbordered : Unbordered replacement) (h : ¬replacement <:+: text) :
    splitOn replacement (replaceAll word replacement text) = splitOn word text := by
  refine splitOn_intercalate hunbordered (splitOn_ne_nil word text) fun piece hpiece hoccurs => h ?_
  have hinside : piece <:+: word.intercalate (splitOn word text) := infix_intercalate_of_mem hpiece
  rw [intercalate_splitOn hword] at hinside
  exact hoccurs.trans hinside

theorem replaceAll_inj {word replacement s t : List Char} (hword : word ≠ [])
    (hunbordered : Unbordered replacement) (hs : ¬replacement <:+: s) (ht : ¬replacement <:+: t)
    (h : replaceAll word replacement s = replaceAll word replacement t) : s = t := by
  have hpieces : splitOn word s = splitOn word t := by
    rw [← splitOn_replaceAll hword hunbordered hs, h, splitOn_replaceAll hword hunbordered ht]
  rw [← intercalate_splitOn hword s, hpieces, intercalate_splitOn hword]

end InteropWitness.Text

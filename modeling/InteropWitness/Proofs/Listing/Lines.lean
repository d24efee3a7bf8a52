import InteropWitness.Listing
import InteropWitness.Proofs.Text.Search

namespace InteropWitness

namespace Text

theorem dropWhile_isBlank_of_head {text : List Char} (h : text.head?.any isBlank = false) :
    text.dropWhile isBlank = text := by
  cases text with
  | nil => rfl
  | cons c rest =>
    have hc : isBlank c = false := h
    rw [List.dropWhile_cons, if_neg (Bool.eq_false_iff.1 hc)]

theorem trim_eq_self {text : List Char} (hhead : text.head?.any isBlank = false)
    (hlast : text.getLast?.any isBlank = false) : trim text = text := by
  rw [← List.head?_reverse] at hlast
  rw [trim, dropWhile_isBlank_of_head hhead, dropWhile_isBlank_of_head hlast, List.reverse_reverse]

theorem trim_cons {c : Char} (h : isBlank c = true) (text : List Char) :
    trim (c :: text) = trim text := by
  rw [trim, List.dropWhile_cons, if_pos h]
  rfl

end Text

namespace Listing

/-- A text that a line of a listing can hold as a field. -/
structure Plain (text : String) : Prop where
  nonempty : text.toList ≠ []
  /-- Blanks at the ends would be trimmed. -/
  head : text.toList.head?.any Text.isBlank = false
  last : text.toList.getLast?.any Text.isBlank = false
  oneLine : '\n' ∉ text.toList
  uncommented : ¬['/', '/'] <:+: text.toList
  /-- Every semicolon stands directly between two apostrophes. -/
  quoted : ∀ i < text.toList.length, text.toList[i]? = some ';' →
    0 < i ∧ text.toList[i - 1]? = some '\'' ∧ text.toList[i + 1]? = some '\''

instance (text : String) : Decidable (Plain text) :=
  decidable_of_iff
    (text.toList ≠ [] ∧ text.toList.head?.any Text.isBlank = false ∧
      text.toList.getLast?.any Text.isBlank = false ∧ '\n' ∉ text.toList ∧
      Text.breakOn ['/', '/'] text.toList = none ∧
      ∀ i < text.toList.length, text.toList[i]? = some ';' →
        0 < i ∧ text.toList[i - 1]? = some '\'' ∧ text.toList[i + 1]? = some '\'')
    ⟨fun ⟨hne, hhead, hlast, hline, hmark, hquoted⟩ =>
        ⟨hne, hhead, hlast, hline, Text.breakOn_eq_none_iff.1 hmark, hquoted⟩,
      fun h => ⟨h.nonempty, h.head, h.last, h.oneLine, Text.breakOn_eq_none_iff.2 h.uncommented,
        h.quoted⟩⟩

theorem Plain.between {text : String} (h : Plain text) {before after : List Char}
    (hcut : text.toList = before ++ ';' :: after) :
    before.getLast? = some '\'' ∧ after.head? = some '\'' := by
  obtain ⟨hpos, hprev, hnext⟩ := h.quoted before.length (by simp [hcut]) (by simp [hcut])
  rw [hcut, List.getElem?_append_left (by omega), ← List.getLast?_eq_getElem?] at hprev
  rw [hcut, List.getElem?_append_right (by omega), Nat.add_sub_cancel_left] at hnext
  exact ⟨hprev, List.head?_eq_getElem?.trans hnext⟩

/-- A field ends at the first semicolon that is not between apostrophes. -/
theorem fieldsAfter_append {text : List Char} {previous : Option Char} {rest : List Char}
    (h : ∀ before after, text = before ++ ';' :: after →
      before.getLast?.or previous = some '\'' ∧ after.head? = some '\'')
    (hrest : rest.head? ≠ some '\'') :
    fieldsAfter previous (text ++ ';' :: rest) = text :: fieldsAfter (some ';') rest := by
  induction text generalizing previous with
  | nil => exact if_pos ⟨rfl, fun hquoted => hrest hquoted.2⟩
  | cons c text ih =>
    have hnext : ∀ before after, text = before ++ ';' :: after →
        before.getLast?.or (some c) = some '\'' ∧ after.head? = some '\'' := by
      intro before after hcut
      obtain ⟨hprev, hafter⟩ := h (c :: before) after (by rw [hcut]; rfl)
      refine ⟨?_, hafter⟩
      rw [List.getLast?_cons, Option.some_or] at hprev
      cases hlast : before.getLast? with
      | none => simpa [hlast] using hprev
      | some d => simpa [hlast] using hprev
    have hkept : ¬(c = ';' ∧
        ¬(previous = some '\'' ∧ (text ++ ';' :: rest).head? = some '\'')) := by
      intro hcut
      obtain ⟨hc, hopen⟩ := hcut
      obtain ⟨hprev, hafter⟩ := h [] text (by rw [hc]; rfl)
      exact hopen ⟨hprev, by rw [List.head?_append, hafter]; rfl⟩
    rw [List.cons_append, fieldsAfter, if_neg hkept, ih hnext]
    rfl

def content (key token : String) : List Char :=
  key.toList ++ ';' :: ([] ++ ' ' :: (token.toList ++ ';' :: []))

theorem fieldsAfter_content {key token : String} (hkey : Plain key) (htoken : Plain token) :
    fieldsAfter none (content key token) = [key.toList, ' ' :: token.toList, []] := by
  have hkeyCut : ∀ before after, key.toList = before ++ ';' :: after →
      before.getLast?.or none = some '\'' ∧ after.head? = some '\'' := by
    intro before after hcut
    rw [Option.or_none]
    exact hkey.between hcut
  have htokenCut : ∀ before after, token.toList = before ++ ';' :: after →
      before.getLast?.or (some ' ') = some '\'' ∧ after.head? = some '\'' := by
    intro before after hcut
    obtain ⟨hprev, hafter⟩ := htoken.between hcut
    rw [hprev]
    exact ⟨rfl, hafter⟩
  have hblank : fieldsAfter (some ';') (' ' :: (token.toList ++ ';' :: [])) =
      (fieldsAfter (some ' ') (token.toList ++ ';' :: [])).modifyHead (' ' :: ·) :=
    if_neg fun h => absurd h.1 (by decide)
  rw [content, List.nil_append, fieldsAfter_append hkeyCut (by simp), hblank,
    fieldsAfter_append htokenCut (by simp)]
  rfl

theorem uncommented_content {key token : String} (hkey : Plain key) (htoken : Plain token) :
    ¬['/', '/'] <:+: content key token := by
  refine Text.not_infix_append_cons (by decide) hkey.uncommented ?_
  refine Text.not_infix_append_cons (by decide) (by simp) ?_
  exact Text.not_infix_append_cons (by decide) htoken.uncommented (by simp)

theorem fields_content {key token : String} (hkey : Plain key) (htoken : Plain token) :
    fields (content key token) = [key, token] := by
  have hblank : Text.trim (' ' :: token.toList) = token.toList := by
    rw [Text.trim_cons (by decide), Text.trim_eq_self htoken.head htoken.last]
  rw [fields, fieldsAfter_content hkey htoken]
  simp only [List.map_cons, List.map_nil, Text.trim_eq_self hkey.head hkey.last, hblank]
  simp [hkey.nonempty, htoken.nonempty, Text.trim]

theorem readLine_content {key token : String} (hkey : Plain key) (htoken : Plain token)
    (number : Nat) : readLine number (content key token) = .ok (some ⟨number, key, token⟩) := by
  rw [readLine, Text.upTo_eq_self (uncommented_content hkey htoken),
    fields_content hkey htoken]

def numbered (number : Nat) : List (String × String) → List Line
  | [] => []
  | e :: rest => ⟨number, e.1, e.2⟩ :: numbered (number + 1) rest

/-- Behind the last line feed stands an empty line. -/
theorem readLines_content {written : List (String × String)}
    (h : ∀ e ∈ written, Plain e.1 ∧ Plain e.2) (number : Nat) :
    readLines number ((written.map fun e => content e.1 e.2) ++ [[]]) =
      .ok (numbered number written) := by
  induction written generalizing number with
  | nil => rfl
  | cons e rest ih =>
    rw [List.forall_mem_cons] at h
    rw [List.map_cons, List.cons_append, readLines, readLine_content h.1.1 h.1.2]
    simp only [ih h.2 (number + 1), bind, Except.bind, pure, Except.pure]
    rfl

theorem splitOn_write {written : List (String × String)}
    (h : ∀ e ∈ written, Plain e.1 ∧ Plain e.2) :
    Text.splitOn ['\n'] (String.join (written.map fun e => write e.1 e.2)).toList =
      (written.map fun e => content e.1 e.2) ++ [[]] := by
  rw [String.toList_join]
  induction written with
  | nil => rfl
  | cons e rest ih =>
    rw [List.forall_mem_cons] at h
    have hwrite : (write e.1 e.2).toList = content e.1 e.2 ++ ['\n'] := by
      simp [write, content]
    have honeLine : ¬['\n'] <:+: content e.1 e.2 := by
      intro hoccurs
      have hmem := hoccurs.subset List.mem_cons_self
      simp [content, h.1.1.oneLine, h.1.2.oneLine] at hmem
    rw [List.map_cons, List.flatMap_cons, hwrite, List.append_assoc]
    have hcut := Text.splitOn_append (by decide) honeLine
    exact (hcut _).trans (congrArg (content e.1 e.2 :: ·) (ih h.2))

/-- The lines of a listing are read as they were written. -/
theorem parse_write {written : List (String × String)}
    (h : ∀ e ∈ written, Plain e.1 ∧ Plain e.2) :
    parse (String.join (written.map fun e => write e.1 e.2)) = .ok (numbered 1 written) := by
  rw [parse, splitOn_write h, readLines_content h]

end Listing

end InteropWitness

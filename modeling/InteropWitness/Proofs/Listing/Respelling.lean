import InteropWitness.Listing
import InteropWitness.Proofs.Text.Respelling
import Mathlib.Data.List.Forall2

namespace InteropWitness.Listing

open Text

/-- What has a meaning in a listing. -/
def isMark (c : Char) : Bool := isBlank c || c = '/' || c = ';' || c = '\''

/-- The number of a line and what `view` shows of its fields. -/
def Line.shown {β : Type} (view : String → β) (l : Line) : Nat × β × β :=
  (l.number, view l.key, view l.token)

theorem forall₂_modifyHead {α β : Type} {R : α → β → Prop} {f : α → α} {g : β → β}
    (hfg : ∀ a b, R a b → R (f a) (g b)) {as : List α} {bs : List β} (h : List.Forall₂ R as bs) :
    List.Forall₂ R (as.modifyHead f) (bs.modifyHead g) := by
  cases h with
  | nil => exact .nil
  | cons hhead htail => exact .cons (hfg _ _ hhead) htail

theorem modifyHead_cons_append (c : Char) (word : List Char) (pieces : List (List Char)) :
    (pieces.modifyHead (word ++ ·)).modifyHead (c :: ·) = pieces.modifyHead (c :: word ++ ·) := by
  cases pieces <;> rfl

theorem splitOn_cons_self (c : Char) (rest : List Char) :
    splitOn [c] (c :: rest) = [] :: splitOn [c] rest :=
  splitOn_separator (List.cons_ne_nil c []) rest

theorem splitOn_cons_of_ne {c d : Char} (h : c ≠ d) (rest : List Char) :
    splitOn [c] (d :: rest) = (splitOn [c] rest).modifyHead (d :: ·) := by
  rw [splitOn, piecesAfter, if_neg (by simpa using h)]
  rfl

theorem splitOn_append_of_not_mem {c : Char} {word : List Char} (h : c ∉ word)
    (rest : List Char) :
    splitOn [c] (word ++ rest) = (splitOn [c] rest).modifyHead (word ++ ·) := by
  induction word with
  | nil => cases hpieces : splitOn [c] rest <;> simp [hpieces]
  | cons d word ih =>
    rw [List.mem_cons, not_or] at h
    rw [List.cons_append, splitOn_cons_of_ne h.1, ih h.2, modifyHead_cons_append]

theorem upTo_comment {c : Char} {rest : List Char} :
    upTo ['/', '/'] (c :: rest) =
      if c = '/' ∧ rest.head? = some '/' then [] else c :: upTo ['/', '/'] rest := by
  have hstarts : ['/', '/'].isPrefixOf? (c :: rest) =
      if c = '/' ∧ rest.head? = some '/' then some rest.tail else none := by
    by_cases hc : c = '/'
    · cases rest with
      | nil => simp [List.isPrefixOf?, hc]
      | cons d rest =>
        by_cases hd : d = '/'
        · simp [List.isPrefixOf?, hc, hd]
        · simp [List.isPrefixOf?, hc, hd, Ne.symm hd]
    · simp [List.isPrefixOf?, hc, Ne.symm hc]
  rw [upTo, breakOn, hstarts]
  split_ifs with h
  · rfl
  · rw [upTo]
    cases breakOn ['/', '/'] rest <;> rfl

theorem upTo_append_of_not_mem {word : List Char} (h : '/' ∉ word) (rest : List Char) :
    upTo ['/', '/'] (word ++ rest) = word ++ upTo ['/', '/'] rest := by
  induction word with
  | nil => rfl
  | cons c word ih =>
    rw [List.mem_cons, not_or] at h
    rw [List.cons_append, upTo_comment, if_neg fun hc => h.1 hc.1.symm, ih h.2, List.cons_append]

theorem fieldsAfter_append_of_not_mem {word : List Char} (h : ';' ∉ word)
    (previous : Option Char) (rest : List Char) :
    fieldsAfter previous (word ++ rest) =
      (fieldsAfter (word.getLast?.or previous) rest).modifyHead (word ++ ·) := by
  induction word generalizing previous with
  | nil =>
    rw [List.nil_append, List.getLast?_nil, Option.none_or]
    cases fieldsAfter previous rest <;> rfl
  | cons c word ih =>
    rw [List.mem_cons, not_or] at h
    have hlast : (c :: word).getLast?.or previous = word.getLast?.or (some c) := by
      rw [List.getLast?_cons]
      cases word.getLast? <;> rfl
    rw [List.cons_append, fieldsAfter, if_neg fun hc => h.1 hc.1.symm, ih h.2, hlast,
      modifyHead_cons_append]

theorem map_readLines_cons {β : Type} (view : String → β) (number : Nat) (raw : List Char)
    (rest : List (List Char)) :
    (readLines number (raw :: rest)).map (List.map (Line.shown view)) = do
      let line ← (readLine number raw).map (Option.map (Line.shown view))
      let lines ← (readLines (number + 1) rest).map (List.map (Line.shown view))
      return line.toList ++ lines := by
  rw [readLines]
  cases readLine number raw with
  | error e => rfl
  | ok line =>
    cases readLines (number + 1) rest with
    | error e => rfl
    | ok lines => cases line <;> rfl

section

variable {swap : List Char → List Char → Prop}
  (hfree : ∀ v w, swap v w → Free isMark v ∧ Free isMark w)
include hfree

theorem lines_respelled {s t : List Char} (h : Respelled swap s t) :
    List.Forall₂ (Respelled swap) (splitOn ['\n'] s) (splitOn ['\n'] t) := by
  induction h with
  | nil => exact .cons .nil .nil
  | char c rest ih =>
    by_cases hc : c = '\n'
    · rw [hc, splitOn_cons_self, splitOn_cons_self]
      exact .cons .nil ih
    · rw [splitOn_cons_of_ne (Ne.symm hc), splitOn_cons_of_ne (Ne.symm hc)]
      exact forall₂_modifyHead (fun _ _ => .char c) ih
  | word hw rest ih =>
    obtain ⟨hv, hw'⟩ := hfree _ _ hw
    rw [splitOn_append_of_not_mem (hv.not_mem (by decide)),
      splitOn_append_of_not_mem (hw'.not_mem (by decide))]
    exact forall₂_modifyHead (fun _ _ => .word hw) ih

theorem uncommented_respelled {s t : List Char} (h : Respelled swap s t) :
    Respelled swap (upTo ['/', '/'] s) (upTo ['/', '/'] t) := by
  induction h with
  | nil => exact .nil
  | char c rest ih =>
    have hnext := rest.head?_eq_iff hfree (c := '/') (by decide)
    rw [upTo_comment, upTo_comment]
    simp only [hnext]
    split_ifs
    · exact .nil
    · exact .char c ih
  | word hw rest ih =>
    obtain ⟨hv, hw'⟩ := hfree _ _ hw
    rw [upTo_append_of_not_mem (hv.not_mem (by decide)),
      upTo_append_of_not_mem (hw'.not_mem (by decide))]
    exact .word hw ih

/-- The character before the text counts only if it is an apostrophe. -/
theorem fieldsAfter_respelled {s t : List Char} (h : Respelled swap s t) {p q : Option Char}
    (hprevious : p = some '\'' ↔ q = some '\'') :
    List.Forall₂ (Respelled swap) (fieldsAfter p s) (fieldsAfter q t) := by
  induction h generalizing p q with
  | nil => exact .cons .nil .nil
  | char c rest ih =>
    have hnext := rest.head?_eq_iff hfree (c := '\'') (by decide)
    rw [fieldsAfter, fieldsAfter]
    simp only [hprevious, hnext]
    split_ifs
    · exact .cons .nil (ih Iff.rfl)
    · exact forall₂_modifyHead (fun _ _ => .char c) (ih Iff.rfl)
  | word hw rest ih =>
    obtain ⟨hv, hw'⟩ := hfree _ _ hw
    rw [fieldsAfter_append_of_not_mem (hv.not_mem (by decide)),
      fieldsAfter_append_of_not_mem (hw'.not_mem (by decide))]
    refine forall₂_modifyHead (fun _ _ => .word hw) (ih ?_)
    have hlast : ∀ {word : List Char}, Free isMark word → ∀ previous : Option Char,
        word.getLast?.or previous ≠ some '\'' := by
      intro word hword previous hend
      rw [List.getLast?_eq_some_getLast hword.nonempty, Option.some_or] at hend
      have hmem := List.getLast_mem hword.nonempty
      rw [Option.some.inj hend] at hmem
      exact hword.not_mem (by decide) hmem
    exact iff_of_false (hlast hv p) (hlast hw' q)

variable {β : Type} {view : String → β}
  (hview : ∀ s t, Respelled swap s t → view (.ofList s) = view (.ofList t))
include hview

theorem map_fields_respelled {s t : List Char} (h : Respelled swap s t) :
    (fields s).map view = (fields t).map view := by
  have hblank : ∀ v w, swap v w → Free isBlank v ∧ Free isBlank w := by
    have hsub : ∀ c, isBlank c = true → isMark c = true := fun c hc => by simp [isMark, hc]
    intro v w hw
    exact ⟨(hfree v w hw).1.mono hsub, (hfree v w hw).2.mono hsub⟩
  have hpieces := fieldsAfter_respelled hfree h (p := none) Iff.rfl
  rw [fields, fields]
  generalize fieldsAfter none s = ss at hpieces ⊢
  generalize fieldsAfter none t = ts at hpieces ⊢
  induction hpieces with
  | nil => rfl
  | cons hpiece _ ih =>
    have htrim := hpiece.trim hblank
    have hempty := htrim.eq_nil_iff hblank
    rw [List.map_cons, List.map_cons, List.filter_cons, List.filter_cons]
    simp only [ne_eq, hempty] at ih ⊢
    split_ifs
    · rw [List.map_cons, List.map_cons, List.map_cons, List.map_cons, hview _ _ htrim, ih]
    · exact ih

theorem readLine_respelled {s t : List Char} (h : Respelled swap s t) (number : Nat) :
    (readLine number s).map (Option.map (Line.shown view)) =
      (readLine number t).map (Option.map (Line.shown view)) := by
  have hfields := map_fields_respelled hfree hview (uncommented_respelled hfree h)
  unfold readLine
  generalize fields (upTo ['/', '/'] s) = ss at hfields ⊢
  generalize fields (upTo ['/', '/'] t) = ts at hfields ⊢
  have hlength : ss.length = ts.length := by simpa using congrArg List.length hfields
  match ss, ts, hfields, hlength with
  | [], [], _, _ => rfl
  | [_], [_], _, _ => rfl
  | [k, v], [k', v'], hfields, _ =>
    simp only [List.map_cons, List.map_nil, List.cons.injEq, and_true] at hfields
    simp [Except.map, Line.shown, hfields]
  | _ :: _ :: _ :: _, _ :: _ :: _ :: _, _, hlength => simp [Except.map, hlength]

theorem readLines_respelled {ss ts : List (List Char)} (h : List.Forall₂ (Respelled swap) ss ts)
    (number : Nat) :
    (readLines number ss).map (List.map (Line.shown view)) =
      (readLines number ts).map (List.map (Line.shown view)) := by
  induction h generalizing number with
  | nil => rfl
  | cons hline _ ih =>
    rw [map_readLines_cons, map_readLines_cons, readLine_respelled hfree hview hline, ih]

/-- Whatever does not tell respelled fields apart does not tell the listings apart either. -/
theorem parse_respelled {s t : String} (h : Respelled swap s.toList t.toList) :
    (parse s).map (List.map (Line.shown view)) = (parse t).map (List.map (Line.shown view)) :=
  readLines_respelled hfree hview (lines_respelled hfree h) 1

end

end InteropWitness.Listing

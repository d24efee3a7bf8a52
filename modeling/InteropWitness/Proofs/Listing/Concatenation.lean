import InteropWitness.Proofs.Listing.Agreement
import InteropWitness.Proofs.Listing.Respelling
import InteropWitness.Proofs.Listing.RoundTrip

namespace InteropWitness.Listing

open Text

/-- The line as it is when `n` lines come before the text. -/
def Line.shift (n : Nat) (line : Line) : Line := { line with number := line.number + n }

def Malformed.shift (n : Nat) (m : Malformed) : Malformed := { m with line := m.line + n }

def shifted (n : Nat) (read : Except Malformed (List Line)) : Except Malformed (List Line) :=
  (read.mapError (Malformed.shift n)).map (List.map (Line.shift n))

theorem splitOn_append_cons (c : Char) (first second : List Char) :
    splitOn [c] (first ++ c :: second) = splitOn [c] first ++ splitOn [c] second := by
  induction first with
  | nil => exact splitOn_cons_self c second
  | cons d rest ih =>
    by_cases hd : c = d
    · subst hd
      rw [List.cons_append, splitOn_cons_self, splitOn_cons_self, ih, List.cons_append]
    · obtain ⟨piece, pieces, hpieces⟩ := List.exists_cons_of_ne_nil (splitOn_ne_nil [c] rest)
      rw [List.cons_append, splitOn_cons_of_ne hd, splitOn_cons_of_ne hd, ih, hpieces]
      rfl

theorem length_splitOn (c : Char) (text : List Char) :
    (splitOn [c] text).length = text.count c + 1 := by
  induction text with
  | nil => rfl
  | cons d rest ih =>
    by_cases hd : c = d
    · subst hd
      rw [splitOn_cons_self, List.length_cons, ih, List.count_cons_self]
    · rw [splitOn_cons_of_ne hd, List.length_modifyHead, ih, List.count_cons_of_ne (Ne.symm hd)]

theorem readLines_append (number : Nat) (first second : List (List Char)) :
    readLines number (first ++ second) =
      (readLines number first).bind fun lines =>
        (readLines (number + first.length) second).map (lines ++ ·) := by
  induction first generalizing number with
  | nil =>
    have hnil : readLines number second = (readLines number second).map ([] ++ ·) := by
      cases readLines number second <;> rfl
    exact hnil
  | cons raw rest ih =>
    have hlength : number + 1 + rest.length = number + (raw :: rest).length := by
      rw [List.length_cons]
      omega
    rw [List.cons_append, readLines, readLines, ih, hlength]
    cases readLine number raw with
    | error m => rfl
    | ok line =>
      cases readLines (number + 1) rest with
      | error m => rfl
      | ok lines =>
        cases readLines (number + (raw :: rest).length) second with
        | error m => rfl
        | ok later => exact congrArg Except.ok (List.append_assoc line.toList lines later).symm

theorem readLine_add (number n : Nat) (raw : List Char) :
    readLine (number + n) raw =
      ((readLine number raw).mapError (Malformed.shift n)).map (Option.map (Line.shift n)) := by
  unfold readLine
  split <;> rfl

theorem readLines_add (number n : Nat) (raws : List (List Char)) :
    readLines (number + n) raws = shifted n (readLines number raws) := by
  induction raws generalizing number with
  | nil => rfl
  | cons raw rest ih =>
    have hnext : number + n + 1 = number + 1 + n := by omega
    rw [readLines, readLines, readLine_add, hnext, ih]
    cases readLine number raw with
    | error m => rfl
    | ok line =>
      cases readLines (number + 1) rest with
      | error m => rfl
      | ok lines => cases line <;> rfl

/-- The first malformed line of the joined text is that of the first text, or else of the second. -/
theorem parse_append (first second : String) :
    parse (first ++ "\n" ++ second) =
      (parse first).bind fun lines =>
        (shifted (1 + first.toList.count '\n') (parse second)).map (lines ++ ·) := by
  have htext : (first ++ "\n" ++ second).toList = first.toList ++ '\n' :: second.toList := by
    simp
  have hnumber : 1 + (splitOn ['\n'] first.toList).length = 1 + (1 + first.toList.count '\n') := by
    rw [length_splitOn, Nat.add_comm (first.toList.count '\n')]
  rw [parse, htext, splitOn_append_cons, readLines_append, hnumber, readLines_add]
  rfl

variable {ρ : Type} [Tokenized ρ] {u : SourceUnit}

theorem stated?_shift (n : Nat) (line : Line) :
    (stated? u (line.shift n) : Option (Identity × ρ)) = stated? u line := rfl

theorem load_eq_ok_iff {text : String} {store : Store ρ} :
    load u text = .ok store ↔
      ∃ lines, parse text = .ok lines ∧
        (∀ line ∈ lines, (stated? u line : Option (Identity × ρ)).isSome = true) ∧
          .ofList (lines.filterMap (stated? u)) = store := by
  cases hparse : parse text with
  | error m =>
    have hload : load u text = (.error (.malformed m) : Except ListingError (Store ρ)) := by
      rw [load, linesOf, hparse]
      rfl
    simp [hload]
  | ok lines =>
    rw [load_of_parse hparse, loadLines_eq_ok_iff]
    simp [OrderedMap.ofList]

theorem load_append {first second : String} {s t : Store ρ} (hfirst : load u first = .ok s)
    (hsecond : load u second = .ok t) :
    load u (first ++ "\n" ++ second) = .ok (s.overlay t) := by
  obtain ⟨lines, hparse, hstated, rfl⟩ := load_eq_ok_iff.1 hfirst
  obtain ⟨later, hparse', hstated', rfl⟩ := load_eq_ok_iff.1 hsecond
  let n := 1 + first.toList.count '\n'
  have hjoined : parse (first ++ "\n" ++ second) = .ok (lines ++ later.map (Line.shift n)) := by
    rw [parse_append, hparse, hparse']
    rfl
  have hall : ∀ line ∈ lines ++ later.map (Line.shift n),
      (stated? u line : Option (Identity × ρ)).isSome = true := by
    intro line hline
    rcases List.mem_append.1 hline with hmem | hmem
    · exact hstated line hmem
    · obtain ⟨line₀, hmem₀, rfl⟩ := List.mem_map.1 hmem
      rw [stated?_shift]
      exact hstated' line₀ hmem₀
  have hshift : (later.map (Line.shift n)).filterMap (stated? u : Line → Option (Identity × ρ)) =
      later.filterMap (stated? u) := by
    rw [List.filterMap_map]
    exact congrArg (later.filterMap ·) (funext (stated?_shift n))
  refine load_eq_ok_iff.2 ⟨_, hjoined, hall, ?_⟩
  rw [List.filterMap_append, hshift, OrderedMap.ofList, List.foldl_append,
    OrderedMap.foldl_assign_eq_overlay]
  rfl

/-- For all texts: where the first is not read, the joined text is not, for the same reason; where
only the second is not read, the joined text is not, for the reason of the second with its line that
much further down; else it has the lines of both. If both load, so does the joined text: entries of
the first store stay in their places with the results of the second for the keys that both have, and
the other entries of the second come behind them. -/
theorem joined_listings_line_up {ρ : Type} [Tokenized ρ] (u : SourceUnit) (a b : String) :
    let n := 1 + a.toList.count '\n'
    (∀ m, parse a = .error m → parse (a ++ "\n" ++ b) = .error m) ∧
      (∀ lines m, parse a = .ok lines → parse b = .error m →
        parse (a ++ "\n" ++ b) = .error ⟨m.line + n, m.fields⟩) ∧
      (∀ lines later, parse a = .ok lines → parse b = .ok later →
        parse (a ++ "\n" ++ b) =
          .ok (lines ++ later.map fun line => ⟨line.number + n, line.key, line.token⟩)) ∧
      ∀ s t : Store ρ, load u a = .ok s → load u b = .ok t →
        ∃ joined, load u (a ++ "\n" ++ b) = .ok joined ∧
          joined.entries = s.entries.map (fun e => (e.1, (t.get? e.1).getD e.2)) ++
            t.entries.filter (·.1 ∉ s.keys) := by
  intro n
  refine ⟨fun m hm => ?_, fun lines m hlines hm => ?_, fun lines later hlines hlater => ?_,
    fun s t hs ht => ⟨_, load_append hs ht, rfl⟩⟩
  · rw [parse_append, hm]
    rfl
  · rw [parse_append, hlines, hm]
    rfl
  · rw [parse_append, hlines, hlater]
    rfl

def endsInReturn : String := "// names; results\r\npxr::Join<';'>; available;\r"

def endsInFeed : String :=
  "pxr::Digits'; unknown; // pxr::Join<';'>;\n\npxr::Join<';'>; blockedByNoCandidate;\n"

theorem separators_line_up :
    parse endsInReturn = .ok [⟨2, "pxr::Join<';'>", "available"⟩] ∧
      parse endsInFeed =
        .ok [⟨1, "pxr::Digits'", "unknown"⟩, ⟨3, "pxr::Join<';'>", "blockedByNoCandidate"⟩] ∧
      parse (endsInReturn ++ "\n" ++ endsInFeed) =
        .ok [⟨2, "pxr::Join<';'>", "available"⟩, ⟨3, "pxr::Digits'", "unknown"⟩,
          ⟨5, "pxr::Join<';'>", "blockedByNoCandidate"⟩] ∧
      (∃ joined : Store StringVerdict,
        load separators (endsInReturn ++ "\n" ++ endsInFeed) = .ok joined ∧
          joined.entries = [(⟨⟨0⟩⟩, .noCandidate), (⟨⟨2⟩⟩, .unknown)]) ∧
      parse "pxr::Digits'" = .error ⟨1, 1⟩ ∧
      parse ("pxr::Digits'" ++ "\n" ++ endsInFeed) = .error ⟨1, 1⟩ ∧
      parse (endsInReturn ++ "\n" ++ "pxr::Digits'") = .error ⟨3, 1⟩ := by
  have hfirst : parse endsInReturn = .ok [⟨2, "pxr::Join<';'>", "available"⟩] := by decide +kernel
  have hsecond : parse endsInFeed =
      .ok [⟨1, "pxr::Digits'", "unknown"⟩, ⟨3, "pxr::Join<';'>", "blockedByNoCandidate"⟩] := by
    decide +kernel
  have hbroken : parse "pxr::Digits'" = .error ⟨1, 1⟩ := by decide +kernel
  have hload : load separators endsInReturn =
      .ok (.ofList [(⟨⟨0⟩⟩, StringVerdict.streamed)]) := by
    rw [load_of_parse hfirst]
    rfl
  have hload' : load separators endsInFeed =
      .ok (.ofList [(⟨⟨2⟩⟩, StringVerdict.unknown), (⟨⟨0⟩⟩, .noCandidate)]) := by
    rw [load_of_parse hsecond]
    rfl
  obtain ⟨_, _, hlines, hloads⟩ :=
    @joined_listings_line_up StringVerdict _ separators endsInReturn endsInFeed
  obtain ⟨_, hbreaksLater, _⟩ :=
    @joined_listings_line_up StringVerdict _ separators endsInReturn "pxr::Digits'"
  obtain ⟨hbreaks, _⟩ :=
    @joined_listings_line_up StringVerdict _ separators "pxr::Digits'" endsInFeed
  exact ⟨hfirst, hsecond, hlines _ _ hfirst hsecond, hloads _ _ hload hload', hbroken,
    hbreaks _ hbroken, hbreaksLater _ _ hfirst hbroken⟩

end InteropWitness.Listing

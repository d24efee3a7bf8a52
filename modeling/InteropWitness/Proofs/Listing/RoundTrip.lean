import InteropWitness.Proofs.Listing.Lines
import InteropWitness.Proofs.OrderedMap
import InteropWitness.Proofs.Verdict.Token
import InteropWitness.Snapshot.Results

namespace InteropWitness

namespace Listing

variable {ρ : Type} [Tokenized ρ]

def nameOf (u : SourceUnit) (entity : Identity) : String :=
  ((u.defining? entity).map (·.name)).getD ""

def written (u : SourceUnit) (e : Identity × ρ) : String × String :=
  (nameOf u e.1, Tokenized.token e.2)

/-- The first key that has no declaration. -/
def unresolved? (u : SourceUnit) (store : Store ρ) : Option Identity :=
  store.keys.find? fun entity => (u.defining? entity).isNone

variable {u : SourceUnit}

theorem namedTokens_cases (entries : List (Identity × ρ)) :
    namedTokens u entries =
      match (entries.map Prod.fst).find? fun entity => (u.defining? entity).isNone with
      | some entity => .error (.unresolvedKey entity.decl)
      | none => .ok (entries.map (written u)) := by
  induction entries with
  | nil => rfl
  | cons e rest ih =>
    rw [namedTokens, List.map_cons, List.find?_cons]
    cases hd : u.defining? e.1 with
    | none => rfl
    | some d =>
      have hname : nameOf u e.1 = d.name := by rw [nameOf, hd]; rfl
      simp only [Option.isNone_some, ih]
      cases (rest.map Prod.fst).find? fun entity => (u.defining? entity).isNone with
      | some entity => rfl
      | none =>
        rw [List.map_cons, written, hname]
        rfl

theorem namedTokens_of_unresolved {store : Store ρ} {entity : Identity}
    (h : unresolved? u store = some entity) :
    namedTokens u store.entries = .error (.unresolvedKey entity.decl) := by
  rw [unresolved?, OrderedMap.keys] at h
  rw [namedTokens_cases, h]

omit [Tokenized ρ] in
theorem unresolved?_eq_none_iff {store : Store ρ} :
    unresolved? u store = none ↔ ∀ e ∈ store.entries, (u.defining? e.1).isSome = true := by
  simp [unresolved?, OrderedMap.keys, Option.isSome_iff_ne_none]

theorem namedTokens_of_resolved {store : Store ρ}
    (h : ∀ e ∈ store.entries, (u.defining? e.1).isSome = true) :
    namedTokens u store.entries = .ok (store.entries.map (written u)) := by
  have hnone := unresolved?_eq_none_iff.2 h
  rw [unresolved?, OrderedMap.keys] at hnone
  rw [namedTokens_cases, hnone]

theorem render_of_resolved {store : Store ρ}
    (h : ∀ e ∈ store.entries, (u.defining? e.1).isSome = true) :
    render u store =
      .ok (String.join ((store.entries.map (written u)).map fun e => write e.1 e.2)) := by
  rw [render, namedTokens_of_resolved h]
  rfl

end Listing

theorem Snapshot.ofStore_of_resolved {ρ : Type} [Tokenized ρ] {u : SourceUnit} {store : Store ρ}
    (h : ∀ e ∈ store.entries, (u.defining? e.1).isSome = true) :
    ofStore u store = .ok (ofTokens (store.entries.map (Listing.written u))) := by
  rw [ofStore, Listing.namedTokens_of_resolved h]
  rfl

end InteropWitness

namespace InteropWitness.Listing

section

variable {ρ : Type} [Tokenized ρ]

/-- An entry that a line of a listing can hold, under a name that stands for its identity. -/
structure Writable (u : SourceUnit) (e : Identity × ρ) : Prop where
  defined : (u.defining? e.1).isSome = true
  name : Plain (nameOf u e.1)
  token : Plain (Tokenized.token e.2)
  found : (u.named? (nameOf u e.1)).map (·.identity) = some e.1

instance (u : SourceUnit) (e : Identity × ρ) : Decidable (Writable u e) :=
  decidable_of_iff
    ((u.defining? e.1).isSome = true ∧ Plain (nameOf u e.1) ∧ Plain (Tokenized.token e.2) ∧
      (u.named? (nameOf u e.1)).map (·.identity) = some e.1)
    ⟨fun ⟨hdefined, hname, htoken, hfound⟩ => ⟨hdefined, hname, htoken, hfound⟩,
      fun h => ⟨h.defined, h.name, h.token, h.found⟩⟩

variable {u : SourceUnit}

theorem parse_written {entries : List (Identity × ρ)}
    (h : ∀ e ∈ entries, Plain (nameOf u e.1) ∧ Plain (Tokenized.token e.2)) :
    parse (String.join ((entries.map (written u)).map fun e => write e.1 e.2)) =
      .ok (numbered 1 (entries.map (written u))) := by
  apply parse_write
  intro e he
  obtain ⟨e₀, he₀, rfl⟩ := List.mem_map.1 he
  exact h e₀ he₀

theorem linesOf_written {entries : List (Identity × ρ)} (h : ∀ e ∈ entries, Writable u e) :
    linesOf (String.join ((entries.map (written u)).map fun e => write e.1 e.2)) =
      .ok (numbered 1 (entries.map (written u))) := by
  rw [linesOf, parse_written fun e he => ⟨(h e he).name, (h e he).token⟩]
  rfl

theorem loadLine_written {e : Identity × ρ} (h : Writable u e)
    (hread : Tokenized.ofToken? (Tokenized.token e.2) = some e.2) (store : Store ρ)
    (number : Nat) :
    loadLine u store ⟨number, nameOf u e.1, Tokenized.token e.2⟩ =
      .ok (store.assign e.1 e.2) := by
  obtain ⟨d, hd, hidentity⟩ := Option.map_eq_some_iff.1 h.found
  simp only [loadLine, hd, hread, hidentity]

theorem loadLines_written {entries : List (Identity × ρ)} (h : ∀ e ∈ entries, Writable u e)
    (hread : ∀ e ∈ entries, Tokenized.ofToken? (Tokenized.token e.2) = some e.2)
    (store : Store ρ) (number : Nat) :
    loadLines u store (numbered number (entries.map (written u))) =
      .ok (entries.foldl (fun m e => m.assign e.1 e.2) store) := by
  induction entries generalizing store number with
  | nil => rfl
  | cons e rest ih =>
    rw [List.forall_mem_cons] at h hread
    rw [List.map_cons, numbered, written, loadLines, loadLine_written h.1 hread.1]
    exact ih h.2 hread.2 _ _

theorem checkLine_written {e : Identity × ρ} (h : Writable u e)
    (hread : Tokenized.ofToken? (Tokenized.token e.2) = some e.2) {store : Store ρ}
    (hget : store.get? e.1 = some e.2) (number : Nat) :
    checkLine u store ⟨number, nameOf u e.1, Tokenized.token e.2⟩ = none := by
  obtain ⟨d, hd, hidentity⟩ := Option.map_eq_some_iff.1 h.found
  simp only [checkLine, hd, hidentity, hget, hread, if_true]

theorem checkLines_written {entries : List (Identity × ρ)} (h : ∀ e ∈ entries, Writable u e)
    (hread : ∀ e ∈ entries, Tokenized.ofToken? (Tokenized.token e.2) = some e.2)
    {store : Store ρ} (hget : ∀ e ∈ entries, store.get? e.1 = some e.2) (number : Nat) :
    (numbered number (entries.map (written u))).filterMap (checkLine u store) = [] := by
  induction entries generalizing number with
  | nil => rfl
  | cons e rest ih =>
    rw [List.forall_mem_cons] at h hread hget
    have hline := checkLine_written h.1 hread.1 hget.1 number
    rw [List.map_cons, numbered, written, List.filterMap_cons_none hline]
    exact ih h.2 hread.2 hget.2 _

theorem length_numbered (number : Nat) (fields : List (String × String)) :
    (numbered number fields).length = fields.length := by
  induction fields generalizing number with
  | nil => rfl
  | cons e rest ih => rw [numbered, List.length_cons, ih, List.length_cons]

/-- Whatever the results are, as long as their tokens are read back. -/
theorem load_render {store : Store ρ} (h : ∀ e ∈ store.entries, Writable u e)
    (hread : ∀ e ∈ store.entries, Tokenized.ofToken? (Tokenized.token e.2) = some e.2) :
    ∃ text, render u store = .ok text ∧ load u text = .ok store ∧
      check u store text = .ok ⟨store.size, []⟩ := by
  have hlines := linesOf_written h
  have hget : ∀ e ∈ store.entries, store.get? e.1 = some e.2 :=
    fun e he => OrderedMap.get?_eq_some_iff.2 he
  refine ⟨_, render_of_resolved fun e he => (h e he).defined, ?_, ?_⟩
  · rw [load, hlines, Except.bind, loadLines_written h hread]
    exact congrArg Except.ok store.ofList_entries
  · rw [check, hlines, Except.map, checkLines_written h hread hget, length_numbered,
      List.length_map]
    rfl

end

/-- For every kind of results, every unit and every store over it whose entries a listing can hold
and whose results hold no separator in their payload: the store is rendered, and what was rendered
loads as the same entries in the same order and is what the store is checked against without
failures. -/
theorem rendered_store_loads_back (kind : ResultKind) (u : SourceUnit) (store : Store kind.Result)
    (hwritable : ∀ e ∈ store.entries, Writable u e)
    (hwhole : ∀ e ∈ store.entries, ∀ s ∈ kind.payload e.2, Text.Bracketed.Whole s) :
    ∃ text, render u store = .ok text ∧ load u text = .ok store ∧
      check u store text = .ok ⟨store.size, []⟩ :=
  load_render hwritable fun e he => ResultKind.ofToken?_token (hwhole e he)

/-- Names with a quoted semicolon, and names that end in a slash or an apostrophe. -/
def separators : SourceUnit where
  decls :=
    [⟨⟨0⟩, "pxr::Join<';'>", none, true, .record ⟨"pxr::Join<';'>", [], [], none⟩⟩,
      ⟨⟨1⟩, "pxr::operator/", none, true, .other⟩,
      ⟨⟨2⟩, "pxr::Digits'", none, true, .record ⟨"pxr::Digits'", [], [], none⟩⟩]
  types := OrderedMap.ofList [("pxr::Join<';'>", .record ⟨0⟩), ("pxr::Digits'", .record ⟨2⟩)]
  wellFormed := WellFormed.fault?_eq_none_iff.1 (by decide)

def separatorResults : Store (ResultKind.Result .relation) :=
  OrderedMap.ofList [(⟨⟨2⟩⟩, RelationVerdict.differentTypes "pxr::Join<';'>" "std::ratio/,"),
    (⟨⟨1⟩⟩, RelationVerdict.unavailable), (⟨⟨0⟩⟩, RelationVerdict.friendFunction)]

theorem separatorResults_load_back :
    (∀ e ∈ separatorResults.entries, Writable separators e) ∧
      (∀ e ∈ separatorResults.entries, ∀ s ∈ ResultKind.relation.payload e.2,
        Text.Bracketed.Whole s) ∧
      ∃ text, render separators separatorResults = .ok text ∧
        load separators text = .ok separatorResults ∧
          check separators separatorResults text = .ok ⟨3, []⟩ := by
  have hwritable : ∀ e ∈ separatorResults.entries, Writable separators e := by decide
  have hwhole : ∀ e ∈ separatorResults.entries, ∀ s ∈ ResultKind.relation.payload e.2,
      Text.Bracketed.Whole s := by decide
  exact ⟨hwritable, hwhole,
    rendered_store_loads_back .relation separators separatorResults hwritable hwhole⟩

end InteropWitness.Listing

import InteropWitness.Listing

namespace InteropWitness

/-- Each distinct item once, in increasing order, with the number of times that it was met. -/
abbrev Tally (α : Type) := List (α × Nat)

namespace Tally

variable {α : Type} [DecidableEq α]

/-- Counts one more `item` in a tally that is sorted by `before`. -/
def add (before : α → α → Bool) (item : α) : Tally α → Tally α
  | [] => [(item, 1)]
  | (other, count) :: rest =>
    if item = other then (other, count + 1) :: rest
    else if before item other then (item, 1) :: (other, count) :: rest
    else (other, count) :: add before item rest

def ofList (before : α → α → Bool) (items : List α) : Tally α :=
  items.foldl (fun tally item => add before item tally) []

/-- How often `item` was met. -/
def count (tally : Tally α) (item : α) : Nat := (tally.lookup item).getD 0

end Tally

/-- The result tokens of one run by declaration name, with versioned namespaces folded in names and
tokens, so that runs against different versions of the library line up. -/
structure Snapshot where
  entries : OrderedMap String String

namespace Snapshot

/-- Takes up names and tokens in their order. -/
def ofTokens (tokens : List (String × String)) : Snapshot :=
  ⟨OrderedMap.ofList
    (tokens.map fun e => (Namespace.foldVersions e.1, Namespace.foldVersions e.2))⟩

def ofListing (text : String) : Except Listing.Malformed Snapshot :=
  (Listing.parse text).map fun lines => ofTokens (lines.map fun line => (line.key, line.token))

/-- The token of a declaration, under its name with any version of the namespace. -/
def get? (s : Snapshot) (name : String) : Option String :=
  s.entries.get? (Namespace.foldVersions name)

/-- How many declarations have each tag. -/
def histogram (s : Snapshot) : Tally String :=
  Tally.ofList (fun a b => a < b) (s.entries.values.map Text.Bracketed.tag)

end Snapshot

end InteropWitness

namespace InteropWitness.Snapshot

def ofStore {ρ : Type} [Tokenized ρ] (u : SourceUnit) (store : Store ρ) :
    Except ListingError Snapshot :=
  (Listing.namedTokens u store.entries).map ofTokens

end InteropWitness.Snapshot

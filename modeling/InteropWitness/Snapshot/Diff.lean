import InteropWitness.Snapshot.Results

namespace InteropWitness

structure Change where
  key : String
  old : String
  new : String
deriving DecidableEq

structure Diff where
  /-- Only the new snapshot has these. -/
  added : List (String × String)
  /-- Only the old snapshot has these. -/
  removed : List (String × String)
  changed : List Change
  /-- How many names have the same token in both. -/
  unchanged : Nat
deriving DecidableEq

namespace Diff

/-- Added and changed entries come in the order of the new snapshot, removed ones in the order of
the old one. -/
def between (old new : Snapshot) : Diff where
  added := new.entries.entries.filter fun e => !old.entries.contains e.1
  removed := old.entries.entries.filter fun e => !new.entries.contains e.1
  changed := new.entries.entries.filterMap fun e =>
    match old.entries.get? e.1 with
    | some token => if token = e.2 then none else some ⟨e.1, token, e.2⟩
    | none => none
  unchanged := (new.entries.entries.filter fun e => old.entries.get? e.1 = some e.2).length

def isEmpty (d : Diff) : Bool := d.added.isEmpty && d.removed.isEmpty && d.changed.isEmpty

/-- Pairs of tags are ordered by the first and then by the second. -/
def tagsBefore (a b : String × String) : Bool := a.1 < b.1 || (a.1 = b.1 && a.2 < b.2)

/-- How many declarations moved from one tag to another. -/
def moves (d : Diff) : Tally (String × String) :=
  Tally.ofList tagsBefore
    (d.changed.map fun c => (Text.Bracketed.tag c.old, Text.Bracketed.tag c.new))

end Diff

end InteropWitness

namespace InteropWitness

/-- A finite map in the order of insertion. A key stands at the place where it first came in, and
assigning it again changes its value only. -/
structure OrderedMap (κ α : Type) where
  entries : List (κ × α)
  nodup : (entries.map Prod.fst).Nodup

namespace OrderedMap

variable {κ α : Type}

def empty : OrderedMap κ α := ⟨[], List.nodup_nil⟩

def keys (m : OrderedMap κ α) : List κ := m.entries.map Prod.fst

def values (m : OrderedMap κ α) : List α := m.entries.map Prod.snd

def size (m : OrderedMap κ α) : Nat := m.entries.length

def isEmpty (m : OrderedMap κ α) : Bool := m.entries.isEmpty

variable [DecidableEq κ]

def get? (m : OrderedMap κ α) (key : κ) : Option α := m.entries.lookup key

def contains (m : OrderedMap κ α) (key : κ) : Bool := (m.get? key).isSome

/-- Puts `value` in the first place of `key`, or at the end if there is none. -/
def place (key : κ) (value : α) : List (κ × α) → List (κ × α)
  | [] => [(key, value)]
  | e :: rest => if e.1 = key then (key, value) :: rest else e :: place key value rest

theorem keys_place (key : κ) (value : α) (entries : List (κ × α)) :
    (place key value entries).map Prod.fst =
      if key ∈ entries.map Prod.fst then entries.map Prod.fst
      else entries.map Prod.fst ++ [key] := by
  induction entries with
  | nil => rfl
  | cons e rest ih => by_cases h : e.1 = key <;> grind [place]

/-- Sets the value of `key`, in its place or, if the key is new, at the end. -/
def assign (m : OrderedMap κ α) (key : κ) (value : α) : OrderedMap κ α :=
  ⟨place key value m.entries, by
    rw [keys_place]
    have := m.nodup
    split
    · exact this
    · grind⟩

/-- Adds `key` at the end unless it has a value. -/
def insertNew (m : OrderedMap κ α) (key : κ) (value : α) : OrderedMap κ α :=
  if m.contains key then m else m.assign key value

/-- Assigns the entries one after the other. -/
def ofList (entries : List (κ × α)) : OrderedMap κ α :=
  entries.foldl (fun m e => m.assign e.1 e.2) empty

/-- The same values under the same keys, in whatever order. -/
def sameEntries [DecidableEq α] (m n : OrderedMap κ α) : Bool :=
  m.size = n.size && m.entries.all fun e => n.get? e.1 = some e.2

theorem get?_eq_none_iff {m : OrderedMap κ α} {key : κ} : m.get? key = none ↔ key ∉ m.keys := by
  unfold get? keys
  induction m.entries with
  | nil => simp
  | cons e rest ih => grind

theorem contains_iff {m : OrderedMap κ α} {key : κ} : m.contains key = true ↔ key ∈ m.keys := by
  rw [contains, Option.isSome_iff_ne_none, ne_eq, get?_eq_none_iff, Classical.not_not]

@[simp] theorem get?_empty (key : κ) : (empty : OrderedMap κ α).get? key = none := rfl

theorem get?_assign (m : OrderedMap κ α) (key other : κ) (value : α) :
    (m.assign key value).get? other = if other = key then some value else m.get? other := by
  unfold get? assign
  simp only
  induction m.entries with
  | nil => grind [place]
  | cons e rest ih => by_cases h : e.1 = key <;> grind [place]

theorem keys_assign (m : OrderedMap κ α) (key : κ) (value : α) :
    (m.assign key value).keys = if key ∈ m.keys then m.keys else m.keys ++ [key] :=
  keys_place key value m.entries

theorem get?_insertNew (m : OrderedMap κ α) (key other : κ) (value : α) :
    (m.insertNew key value).get? other =
      if other = key ∧ key ∉ m.keys then some value else m.get? other := by
  unfold insertNew
  split
  · next h => simp [contains_iff.1 h]
  · next h =>
    have hk : key ∉ m.keys := fun hk => h (contains_iff.2 hk)
    simp [get?_assign, hk]

theorem keys_insertNew (m : OrderedMap κ α) (key : κ) (value : α) :
    (m.insertNew key value).keys = if key ∈ m.keys then m.keys else m.keys ++ [key] := by
  unfold insertNew
  split
  · next h => rw [if_pos (contains_iff.1 h)]
  · exact keys_assign m key value

end OrderedMap

end InteropWitness

import InteropWitness.Json.Basic

namespace InteropWitness.Json

def text? : Json → Option String
  | string text => text
  | _ => none

def bool? : Json → Option Bool
  | bool b => some b
  | _ => none

/-- A number below `bound` written with digits only. -/
def natural? (bound : Nat) : Json → Option Nat
  | number n => n.natural?.filter (· < bound)
  | _ => none

def list? {α : Type} (decode : Json → Option α) : Json → Option (List α)
  | array items => items.mapM decode
  | _ => none

/-- Null stands for the absent value. -/
def nullable? {α : Type} (decode : Json → Option α) : Json → Option (Option α)
  | null => some none
  | v => (decode v).map some

def isNull : Json → Bool
  | null => true
  | _ => false

/-- Null or, among values that are stored before they are read, an empty object. -/
def isVoid : Json → Bool
  | null | object [] => true
  | _ => false

/-- A name by itself, or as the only key of an object that gives it an `empty` payload. -/
def name? (empty : Json → Bool) : Json → Option String
  | string name => name
  | object [(name, payload)] => if empty payload then name else none
  | _ => none

/-- One of the names. -/
def choice? {α : Type} (names : List (String × α)) (v : Json) : Option α :=
  (v.name? isNull).bind fun name => names.lookup name

/-- One of the names, in a value that was stored before it is read. -/
def storedChoice? {α : Type} (names : List (String × α)) (v : Json) : Option α :=
  (v.name? isVoid).bind fun name => names.lookup name

/-- The members of an object whose keys all have a text. -/
def members? : Json → Option (List (String × Json))
  | object members => members.mapM fun m => m.1.map fun key => (key, m.2)
  | _ => none

/-- The members of a record: those of an object, or a list of values for the first members in their
`order`. -/
def fields? (order : List String) : Json → Option (List (String × Json))
  | array items => if items.length ≤ order.length then some (order.zip items) else none
  | v => v.members?

/-- The values given under `name`. -/
def given (name : String) (members : List (String × Json)) : List Json :=
  (members.filter (·.1 = name)).map Prod.snd

/-- A member that has to be there. -/
def required? {α : Type} (members : List (String × Json)) (name : String)
    (decode : Json → Option α) : Option α :=
  match given name members with
  | [v] => decode v
  | _ => none

/-- A member with a value to take in its absence. -/
def withDefault? {α : Type} (members : List (String × Json)) (name : String) (default : α)
    (decode : Json → Option α) : Option α :=
  match given name members with
  | [] => some default
  | [v] => decode v
  | _ => none

/-- The tag of a record whose payload stands beside it in the same object: one of the names, or the
place of one in their list. -/
def tag? (names : List String) : Json → Option String
  | string (some name) => if name ∈ names then some name else none
  | number n => n.natural?.bind fun place => names[place]?
  | _ => none

/-- Containers may nest this deep in what is read into values. -/
def maximalDepth : Nat := 127

/-- The members of an object that is read around `first`: the others are stored until `first` is
known, so they have to be storable. `level` containers enclose them. -/
def storedMembers? (level : Nat) (first : String) (v : Json) : Option (List (String × Json)) :=
  v.members?.filter fun members =>
    members.all fun m => m.1 = first || m.2.isStorable (maximalDepth - level)

end InteropWitness.Json

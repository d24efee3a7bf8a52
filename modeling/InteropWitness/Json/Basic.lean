namespace InteropWitness.Json

/-- A number as it is written. -/
structure Number where
  negative : Bool
  whole : Nat
  /-- The digits after the point; none if there is no point. -/
  fraction : List (Fin 10)
  exponent : Option Int
deriving DecidableEq

namespace Number

def ofNat (n : Nat) : Number := ⟨false, n, [], none⟩

/-- The value of a number that is written with digits only. -/
def natural? (n : Number) : Option Nat :=
  if !n.negative && n.fraction.isEmpty && n.exponent.isNone then some n.whole else none

/-- Appends decimal digits to `kept` until one would take it beyond 64 bits. That digit and all
after it are left over. -/
def keepDigits (kept : Nat) : List Nat → Nat × List Nat
  | [] => (kept, [])
  | d :: rest =>
    if 10 * kept + d < UInt64.size then keepDigits (10 * kept + d) rest else (kept, d :: rest)

/-- The leading digits of the number and the power of ten that they are multiplied by. A digit of
the whole part that is left over raises the power; one of the fraction is dropped. -/
def leading (n : Number) : Nat × Int :=
  let (whole, passed) := keepDigits 0 ((Nat.toDigits 10 n.whole).map fun c => c.toNat - '0'.toNat)
  let (kept, dropped) := keepDigits whole (n.fraction.map Fin.val)
  let places : Int := n.fraction.length - dropped.length
  (kept, n.exponent.getD 0 + passed.length - places)

/-- The nearest number with at most 53 binary digits; between two, the one that ends in zero. -/
def toPrecision (n : Nat) : Nat :=
  let unit := Nat.pow 2 (n.log2 - 52)
  let rest := n % unit
  if 2 * rest < unit ∨ (2 * rest = unit ∧ n / unit % 2 = 0) then n - rest else n - rest + unit

/-- The least magnitude that rounds to infinity. -/
def overflow : Nat := Nat.pow 2 1024 - Nat.pow 2 970

/-- Conversion to double precision does not overflow. It is quick instead of exact: it rounds the
leading digits that fit 64 bits and the power of ten by themselves, and their product once more. A
number near the largest double may therefore overflow where an exact conversion would not, or the
other way round. Powers beyond 308 are not tried. -/
def isFinite (n : Number) : Bool :=
  let (kept, power) := n.leading
  kept = 0 || power < 0 ||
    (power ≤ 308 && toPrecision kept * toPrecision (Nat.pow 10 power.toNat) < overflow)

end Number

end InteropWitness.Json

namespace InteropWitness

/-- Objects keep the order and the repetitions of their members. A string may hold an escape that
stands for half of a surrogate pair; such a string has no text, and is kept only so that it can be
passed over where nobody reads it. -/
inductive Json where
  | null
  | bool (b : Bool)
  | number (n : Json.Number)
  | string (text : Option String)
  | array (items : List Json)
  | object (members : List (Option String × Json))

end InteropWitness

namespace InteropWitness.Json

def ofText (text : String) : Json := string (some text)

def ofNat (n : Nat) : Json := number (.ofNat n)

/-- An object with the given texts as keys. -/
def record (members : List (String × Json)) : Json :=
  object (members.map fun m => (some m.1, m.2))

mutual
/-- A value that can be stored apart from the text it was read from: every string has a text, every
number is finite, and containers nest at most `levels` deep. -/
def isStorable (levels : Nat) : Json → Bool
  | null | bool _ => true
  | number n => n.isFinite
  | string text => text.isSome
  | array items => levels ≠ 0 && areStorable (levels - 1) items
  | object members => levels ≠ 0 && membersStorable (levels - 1) members

def areStorable (levels : Nat) : List Json → Bool
  | [] => true
  | item :: rest => isStorable levels item && areStorable levels rest

def membersStorable (levels : Nat) : List (Option String × Json) → Bool
  | [] => true
  | (key, value) :: rest =>
    key.isSome && isStorable levels value && membersStorable levels rest
end

def hexDigit (n : Nat) : Char :=
  if n < 10 then Char.ofNat ('0'.toNat + n) else Char.ofNat ('a'.toNat + (n - 10))

def escape (c : Char) : List Char :=
  if c = '"' then ['\\', '"']
  else if c = '\\' then ['\\', '\\']
  else if c = '\x08' then ['\\', 'b']
  else if c = '\x0c' then ['\\', 'f']
  else if c = '\n' then ['\\', 'n']
  else if c = '\r' then ['\\', 'r']
  else if c = '\t' then ['\\', 't']
  else if c.toNat < 0x20 then
    ['\\', 'u', '0', '0', hexDigit (c.toNat / 16), hexDigit (c.toNat % 16)]
  else [c]

/-- A string without a text is written as a lone half of a surrogate pair. -/
def quoted : Option String → List Char
  | some text => '"' :: text.toList.flatMap escape ++ ['"']
  | none => ['"', '\\', 'u', 'd', '8', '0', '0', '"']

def Number.render (n : Number) : List Char :=
  let fraction := match n.fraction with
    | [] => []
    | digits => '.' :: digits.map fun d => hexDigit d.val
  let exponent := match n.exponent with
    | none => []
    | some e => 'e' :: (toString e).toList
  (if n.negative then ['-'] else []) ++ Nat.toDigits 10 n.whole ++ fraction ++ exponent

/-- A new line at the given depth. -/
def newline (depth : Nat) : List Char := '\n' :: List.replicate (2 * depth) ' '

mutual
/-- The text of a value that stands at the given depth. -/
def render (depth : Nat) : Json → List Char
  | null => ['n', 'u', 'l', 'l']
  | bool true => ['t', 'r', 'u', 'e']
  | bool false => ['f', 'a', 'l', 's', 'e']
  | number n => n.render
  | string text => quoted text
  | array [] => ['[', ']']
  | array (item :: rest) =>
    '[' :: newline (depth + 1) ++ render (depth + 1) item ++ renderItems (depth + 1) rest ++
      newline depth ++ [']']
  | object [] => ['\x7b', '\x7d']
  | object ((key, value) :: rest) =>
    '\x7b' :: newline (depth + 1) ++ quoted key ++ [':', ' '] ++ render (depth + 1) value ++
      renderMembers (depth + 1) rest ++ newline depth ++ ['\x7d']

def renderItems (depth : Nat) : List Json → List Char
  | [] => []
  | item :: rest => ',' :: newline depth ++ render depth item ++ renderItems depth rest

def renderMembers (depth : Nat) : List (Option String × Json) → List Char
  | [] => []
  | (key, value) :: rest =>
    ',' :: newline depth ++ quoted key ++ [':', ' '] ++ render depth value ++
      renderMembers depth rest
end

/-- One item or member on a line, two spaces deeper than its container, which closes on a line of
its own; an empty container is written as a pair of brackets. -/
def print (v : Json) : String := String.ofList (v.render 0)

end InteropWitness.Json

import InteropWitness.Json.Basic

namespace InteropWitness.Json

inductive Token where
  | openObject
  | closeObject
  | openArray
  | closeArray
  | colon
  | comma
  | null
  | bool (b : Bool)
  | number (n : Number)
  | string (text : Option String)
deriving DecidableEq

/-- What a string is made of: characters, and code units of UTF-16 given by their number. -/
inductive Piece where
  | char (c : Char)
  | unit (n : Nat)
deriving DecidableEq

def isHighSurrogate (n : Nat) : Bool := 0xD800 ≤ n && n < 0xDC00

def isLowSurrogate (n : Nat) : Bool := 0xDC00 ≤ n && n < 0xE000

/-- The text that the pieces spell. A high surrogate must be followed by a low one, and no low one
may stand elsewhere. -/
def spell? : List Piece → Option (List Char)
  | [] => some []
  | .char c :: rest => (spell? rest).map (c :: ·)
  | .unit high :: .unit low :: rest =>
    if isHighSurrogate high then
      if isLowSurrogate low then
        (spell? rest).map (Char.ofNat (0x10000 + (high - 0xD800) * 0x400 + (low - 0xDC00)) :: ·)
      else none
    else if isLowSurrogate high then none
    else (spell? (.unit low :: rest)).map (Char.ofNat high :: ·)
  | .unit n :: rest =>
    if isHighSurrogate n || isLowSurrogate n then none
    else (spell? rest).map (Char.ofNat n :: ·)

def hexDigit? (c : Char) : Option Nat :=
  if c.isDigit then some (c.toNat - '0'.toNat)
  else if 'a' ≤ c ∧ c ≤ 'f' then some (c.toNat - 'a'.toNat + 10)
  else if 'A' ≤ c ∧ c ≤ 'F' then some (c.toNat - 'A'.toNat + 10)
  else none

/-- The code unit with these four hexadecimal digits. -/
def unit? (a b c d : Char) : Option Nat := do
  return (((← hexDigit? a) * 16 + (← hexDigit? b)) * 16 + (← hexDigit? c)) * 16 + (← hexDigit? d)

/-- The character that a letter stands for after a backslash. -/
def escaped? : Char → Option Char
  | '"' => some '"'
  | '\\' => some '\\'
  | '/' => some '/'
  | 'b' => some '\x08'
  | 'f' => some '\x0c'
  | 'n' => some '\n'
  | 'r' => some '\r'
  | 't' => some '\t'
  | _ => none

/-- The pieces up to the closing quote, and the text after it. -/
def pieces? : List Char → Option (List Piece × List Char)
  | [] => none
  | '"' :: rest => some ([], rest)
  | '\\' :: 'u' :: a :: b :: c :: d :: rest =>
    match unit? a b c d, pieces? rest with
    | some n, some (pieces, after) => some (.unit n :: pieces, after)
    | _, _ => none
  | '\\' :: letter :: rest =>
    match escaped? letter, pieces? rest with
    | some c, some (pieces, after) => some (.char c :: pieces, after)
    | _, _ => none
  | c :: rest =>
    if c = '\\' ∨ c.toNat < 0x20 then none
    else
      match pieces? rest with
      | some (pieces, after) => some (.char c :: pieces, after)
      | none => none

def digitValue (c : Char) : Nat := c.toNat - '0'.toNat

/-- The value of a run of ASCII digits. -/
def digitsValue (digits : List Char) : Nat :=
  digits.foldl (fun value c => 10 * value + digitValue c) 0

/-- A run of digits that is not empty, and the text after it. -/
def digits? (text : List Char) : Option (List Char × List Char) :=
  match text.takeWhile Char.isDigit with
  | [] => none
  | digits => some (digits, text.dropWhile Char.isDigit)

def fraction? : List Char → Option (List (Fin 10) × List Char)
  | '.' :: rest =>
    (digits? rest).map fun (digits, after) =>
      (digits.map fun c => Fin.ofNat 10 (digitValue c), after)
  | text => some ([], text)

def exponent? : List Char → Option (Option Int × List Char)
  | c :: rest =>
    if c = 'e' ∨ c = 'E' then
      match rest with
      | '-' :: rest => (digits? rest).map fun (ds, after) => (some (-(digitsValue ds : Int)), after)
      | '+' :: rest => (digits? rest).map fun (ds, after) => (some (digitsValue ds : Int), after)
      | rest => (digits? rest).map fun (ds, after) => (some (digitsValue ds : Int), after)
    else some (none, c :: rest)
  | [] => some (none, [])

/-- A number without its sign. -/
def magnitude? (negative : Bool) (text : List Char) : Option (Number × List Char) :=
  match digits? text with
  | none => none
  | some (digits, rest) =>
    if digits.head? = some '0' ∧ digits ≠ ['0'] then none
    else
      match fraction? rest with
      | none => none
      | some (fraction, rest) =>
        match exponent? rest with
        | none => none
        | some (exponent, rest) => some (⟨negative, digitsValue digits, fraction, exponent⟩, rest)

def number? : List Char → Option (Number × List Char)
  | '-' :: rest => magnitude? true rest
  | text => magnitude? false text

/-- The token that starts a text which is neither empty nor starts with a space. -/
def Token.read? : List Char → Option (Token × List Char)
  | '{' :: rest => some (.openObject, rest)
  | '}' :: rest => some (.closeObject, rest)
  | '[' :: rest => some (.openArray, rest)
  | ']' :: rest => some (.closeArray, rest)
  | ':' :: rest => some (.colon, rest)
  | ',' :: rest => some (.comma, rest)
  | 'n' :: 'u' :: 'l' :: 'l' :: rest => some (.null, rest)
  | 't' :: 'r' :: 'u' :: 'e' :: rest => some (.bool true, rest)
  | 'f' :: 'a' :: 'l' :: 's' :: 'e' :: rest => some (.bool false, rest)
  | '"' :: rest =>
    (pieces? rest).map fun (pieces, after) => (.string ((spell? pieces).map String.ofList), after)
  | text => (number? text).map fun (n, after) => (.number n, after)

theorem length_of_pieces? {text after : List Char} {pieces : List Piece}
    (h : pieces? text = some (pieces, after)) : after.length < text.length := by
  fun_induction pieces? text generalizing pieces after <;>
    simp only [List.length_cons, List.length_nil] <;> grind

theorem length_of_digits? {text after digits : List Char}
    (h : digits? text = some (digits, after)) : after.length < text.length := by
  unfold digits? at h
  split at h
  · simp at h
  · next hne =>
    have hpos := List.length_pos_iff.2 hne
    have hlength : (text.takeWhile Char.isDigit).length + (text.dropWhile Char.isDigit).length =
        text.length := by
      rw [← List.length_append, List.takeWhile_append_dropWhile]
    grind

theorem length_of_fraction? {text after : List Char} {fraction : List (Fin 10)}
    (h : fraction? text = some (fraction, after)) : after.length ≤ text.length := by
  unfold fraction? at h
  split at h
  · obtain ⟨⟨ds, rest⟩, hd, he⟩ := Option.map_eq_some_iff.1 h
    have := length_of_digits? hd
    grind
  · grind

theorem length_of_exponent? {text after : List Char} {exponent : Option Int}
    (h : exponent? text = some (exponent, after)) : after.length ≤ text.length := by
  unfold exponent? at h
  split at h
  · split at h
    · split at h <;>
      · obtain ⟨⟨ds, rest⟩, hd, he⟩ := Option.map_eq_some_iff.1 h
        have := length_of_digits? hd
        grind
    · grind
  · grind

theorem length_of_magnitude? {negative : Bool} {text after : List Char} {n : Number}
    (h : magnitude? negative text = some (n, after)) : after.length < text.length := by
  unfold magnitude? at h
  split at h
  · simp at h
  next digits r₁ h₁ =>
  have := length_of_digits? h₁
  split at h
  · simp at h
  split at h
  · simp at h
  next fraction r₂ h₂ =>
  have := length_of_fraction? h₂
  split at h
  · simp at h
  next exponent r₃ h₃ =>
  have := length_of_exponent? h₃
  grind

theorem length_of_number? {text after : List Char} {n : Number}
    (h : number? text = some (n, after)) : after.length < text.length := by
  unfold number? at h
  split at h <;> have := length_of_magnitude? h
  · grind
  · exact this

theorem Token.length_of_read? {text after : List Char} {t : Token}
    (h : Token.read? text = some (t, after)) : after.length < text.length := by
  unfold Token.read? at h
  split at h
  case h_10 =>
    obtain ⟨⟨pieces, rest⟩, hp, he⟩ := Option.map_eq_some_iff.1 h
    have := length_of_pieces? hp
    grind
  case h_11 =>
    obtain ⟨⟨n, rest⟩, hn, he⟩ := Option.map_eq_some_iff.1 h
    have := length_of_number? hn
    grind
  all_goals grind

def isSpace (c : Char) : Bool := c = ' ' || c = '\t' || c = '\n' || c = '\r'

/-- All tokens of a text. -/
def tokens? : List Char → Option (List Token)
  | [] => some []
  | c :: rest =>
    if isSpace c then tokens? rest
    else
      match h : Token.read? (c :: rest) with
      | none => none
      | some (t, after) =>
        have := Token.length_of_read? h
        (tokens? after).map (t :: ·)
termination_by text => text.length
decreasing_by
  · exact Nat.lt_succ_self _
  · assumption

/-- An open container, its contents so far in reverse. An object also knows the key that the next
value belongs to. -/
inductive Frame where
  | array (items : List Json)
  | object (members : List (Option String × Json)) (name : Option String)

/-- What may come next. -/
inductive State where
  /-- A value. -/
  | value (stack : List Frame)
  /-- The first item of an array, or its end. -/
  | itemOrClose (stack : List Frame)
  /-- A comma after an item, or the end of the array. -/
  | afterItem (items : List Json) (stack : List Frame)
  /-- The first key of an object, or its end. -/
  | keyOrClose (stack : List Frame)
  | key (members : List (Option String × Json)) (stack : List Frame)
  | colon (members : List (Option String × Json)) (name : Option String) (stack : List Frame)
  /-- A comma after a member, or the end of the object. -/
  | afterMember (members : List (Option String × Json)) (stack : List Frame)
  /-- Nothing more. -/
  | finished (v : Json)

/-- Hands a value to the innermost open container. -/
def State.complete (v : Json) : List Frame → State
  | [] => finished v
  | .array items :: stack => afterItem (v :: items) stack
  | .object members name :: stack => afterMember ((name, v) :: members) stack

/-- Starts a value. -/
def State.start (stack : List Frame) : Token → Option State
  | .openArray => some (itemOrClose stack)
  | .openObject => some (keyOrClose stack)
  | .null => some (complete .null stack)
  | .bool b => some (complete (.bool b) stack)
  | .number n => some (complete (.number n) stack)
  | .string text => some (complete (.string text) stack)
  | _ => none

def State.step : State → Token → Option State
  | value stack, t => start stack t
  | itemOrClose stack, .closeArray => some (complete (.array []) stack)
  | itemOrClose stack, t => start (.array [] :: stack) t
  | afterItem items stack, .comma => some (value (.array items :: stack))
  | afterItem items stack, .closeArray => some (complete (.array items.reverse) stack)
  | keyOrClose stack, .closeObject => some (complete (.object []) stack)
  | keyOrClose stack, .string name => some (colon [] name stack)
  | key members stack, .string name => some (colon members name stack)
  | colon members name stack, .colon => some (value (.object members name :: stack))
  | afterMember members stack, .comma => some (key members stack)
  | afterMember members stack, .closeObject =>
    some (complete (.object members.reverse) stack)
  | _, _ => none

def State.steps : State → List Token → Option State
  | s, [] => some s
  | s, t :: rest => (s.step t).bind fun s => s.steps rest

/-- The value that a text spells: its tokens lead from the wish for a value to exactly one finished
value. -/
def parse? (text : String) : Option Json :=
  match (tokens? text.toList).bind (State.value []).steps with
  | some (.finished v) => some v
  | _ => none

end InteropWitness.Json

namespace InteropWitness.Text

/-- The text before and after the first occurrence of `word`. -/
def breakOn (word : List Char) : List Char → Option (List Char × List Char)
  | [] => if word = [] then some ([], []) else none
  | c :: rest =>
    match word.isPrefixOf? (c :: rest) with
    | some after => some ([], after)
    | none => (breakOn word rest).map fun (before, after) => (c :: before, after)

/-- The pieces between the occurrences of a non-empty `separator`, once `skip` characters have been
passed over. A found separator is passed over one character at a time, so the recursion follows the
text. -/
def piecesAfter (separator : List Char) : Nat → List Char → List (List Char)
  | _, [] => [[]]
  | skip + 1, _ :: rest => piecesAfter separator skip rest
  | 0, c :: rest =>
    if separator.isPrefixOf (c :: rest) then
      [] :: piecesAfter separator (separator.length - 1) rest
    else
      (piecesAfter separator 0 rest).modifyHead (c :: ·)

/-- Cuts a text at the leftmost occurrences of a separator that do not overlap. -/
def splitOn (separator text : List Char) : List (List Char) := piecesAfter separator 0 text

def replaceAll (word replacement text : List Char) : List Char :=
  replacement.intercalate (splitOn word text)

/-- A text without any occurrence of `word` before the place where it is cut. -/
def upTo (word text : List Char) : List Char :=
  match breakOn word text with
  | some (before, _) => before
  | none => text

/-- The characters with the Unicode property White_Space. -/
def isBlank (c : Char) : Bool :=
  let n := c.toNat
  (0x09 ≤ n && n ≤ 0x0D) || n == 0x20 || n == 0x85 || n == 0xA0 || n == 0x1680 ||
    (0x2000 ≤ n && n ≤ 0x200A) || n == 0x2028 || n == 0x2029 || n == 0x202F || n == 0x205F ||
    n == 0x3000

def trim (text : List Char) : List Char :=
  ((text.dropWhile isBlank).reverse.dropWhile isBlank).reverse

/-- No character but blanks. -/
def allBlank (text : String) : Bool := text.toList.all isBlank

end InteropWitness.Text

namespace InteropWitness.Text.Bracketed

/-- Stands between two fields. -/
def separator : String := ",, "

/-- Bracketed field lists are written `[first,, second,, third]`. -/
def encode (fields : List String) : String :=
  String.ofList ('[' :: separator.toList.intercalate (fields.map String.toList) ++ [']'])

/-- The text between an opening bracket and a closing one at the end. -/
def inside? : List Char → Option (List Char)
  | '[' :: rest => if rest.getLast? = some ']' then some rest.dropLast else none
  | _ => none

def decode? (token : String) : Option (List String) :=
  (inside? token.toList).map fun fields => (splitOn separator.toList fields).map String.ofList

/-- The first field of a bracketed text, and any other text as it is. -/
def tag (token : String) : String :=
  ((decode? token).bind List.head?).getD token

end InteropWitness.Text.Bracketed

namespace InteropWitness.Text.Word64

/-- The value of a non-empty run of ASCII digits. -/
def digits? (text : List Char) : Option Nat :=
  if text ≠ [] ∧ text.all Char.isDigit then
    some (text.foldl (fun value c => 10 * value + (c.toNat - '0'.toNat)) 0)
  else none

/-- An optional single sign and at least one ASCII digit. -/
def integer? : List Char → Option Int
  | '+' :: rest => (digits? rest).map Int.ofNat
  | '-' :: rest => (digits? rest).map fun n => -Int.ofNat n
  | text => (digits? text).map Int.ofNat

def decode? (text : String) : Option Int64 :=
  (integer? text.toList).bind fun value =>
    if Int64.minValue.toInt ≤ value ∧ value ≤ Int64.maxValue.toInt then some (Int64.ofInt value)
    else none

def encode (word : Int64) : String := toString word.toInt

end InteropWitness.Text.Word64

namespace InteropWitness.Namespace

/-- Stands for the library namespace in texts that should outlive a version of the library. -/
def placeholder : String := "{ns}"

def expand (text ns : String) : String :=
  String.ofList (Text.replaceAll placeholder.toList ns.toList text.toList)

/-- What a versioned namespace starts with. -/
def opening : String := "pxrInternal_v"

/-- What a versioned namespace ends with. -/
def closing : String := "__pxrReserved__"

/-- Versions are spelled with ASCII digits and underscores. -/
def isVersionChar (c : Char) : Bool := c.isDigit || c = '_'

/-- The length of the versioned namespace that `text` starts with. Its version, the part up to the
first closing, is not empty. -/
def versionedLength? (text : List Char) : Option Nat :=
  (opening.toList.isPrefixOf? text).bind fun after =>
    (Text.breakOn closing.toList after).bind fun (version, _) =>
      if version ≠ [] ∧ version.all isVersionChar then
        some (opening.length + version.length + closing.length)
      else none

/-- Folds the versioned namespaces of a text once `skip` characters have been passed over. -/
def foldAfter : Nat → List Char → List Char
  | _, [] => []
  | skip + 1, _ :: rest => foldAfter skip rest
  | 0, c :: rest =>
    match versionedLength? (c :: rest) with
    | some length => placeholder.toList ++ foldAfter (length - 1) rest
    | none => c :: foldAfter 0 rest

def foldVersions (text : String) : String := String.ofList (foldAfter 0 text.toList)

end InteropWitness.Namespace

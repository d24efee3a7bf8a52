import InteropWitness.Pass.Basic
import InteropWitness.SourceUnit.Basic
import InteropWitness.Verdict

namespace InteropWitness.Listing

structure Line where
  /-- Counted from one. -/
  number : Nat
  key : String
  token : String
deriving DecidableEq

/-- A line with some number of fields other than two. -/
structure Malformed where
  line : Nat
  fields : Nat
deriving DecidableEq

def Malformed.message (m : Malformed) : String :=
  "line " ++ toString m.line ++ ": expected '<declaration>; <result>;', got " ++
    toString m.fields ++ " field(s)"

/-- The fields of a text that follows the character `previous`. A semicolon ends a field unless it
stands between two apostrophes. -/
def fieldsAfter (previous : Option Char) : List Char → List (List Char)
  | [] => [[]]
  | c :: rest =>
    if c = ';' ∧ ¬(previous = some '\'' ∧ rest.head? = some '\'') then
      [] :: fieldsAfter (some c) rest
    else
      (fieldsAfter (some c) rest).modifyHead (c :: ·)

/-- The trimmed fields that are not empty. -/
def fields (content : List Char) : List String :=
  (((fieldsAfter none content).map Text.trim).filter (· ≠ [])).map String.ofList

def readLine (number : Nat) (raw : List Char) : Except Malformed (Option Line) :=
  match fields (Text.upTo ['/', '/'] raw) with
  | [] => .ok none
  | [key, token] => .ok (some ⟨number, key, token⟩)
  | other => .error ⟨number, other.length⟩

/-- Reads lines numbered from `number` on and stops at the first malformed one. -/
def readLines (number : Nat) : List (List Char) → Except Malformed (List Line)
  | [] => .ok []
  | raw :: rest => do
    let line ← readLine number raw
    let lines ← readLines (number + 1) rest
    return line.toList ++ lines

/-- Listings have one `declaration; result;` on a line. Comments run from `//` to the end of the
line, which is at a line feed. A line has no field or exactly two. -/
def parse (text : String) : Except Malformed (List Line) :=
  readLines 1 (Text.splitOn ['\n'] text.toList)

/-- The written form of one line. -/
def write (key token : String) : String := key ++ "; " ++ token ++ ";\n"

end InteropWitness.Listing

namespace InteropWitness

inductive ListingError where
  | malformed (m : Listing.Malformed)
  | unknownDeclaration (line : Nat) (key : String)
  /-- An entry of a store has no declaration in the unit. -/
  | unresolvedKey (decl : DeclId)
  | unparsableResult (line : Nat) (key token : String)
deriving DecidableEq

def ListingError.message : ListingError → String
  | malformed m => m.message
  | unknownDeclaration line key =>
    "line " ++ toString line ++ ": unknown declaration '" ++ key ++ "'"
  | unresolvedKey decl =>
    "store entry " ++ decl.label ++ " has no declaration in this unit"
  | unparsableResult line key token =>
    "line " ++ toString line ++ ": unparsable result '" ++ token ++ "' for '" ++ key ++ "'"

namespace Listing

variable {ρ : Type} [Tokenized ρ]

/-- The lines of a text, as far as results are concerned. -/
def linesOf (text : String) : Except ListingError (List Line) :=
  (parse text).mapError .malformed

/-- The names and tokens of entries in their order. -/
def namedTokens (u : SourceUnit) :
    List (Identity × ρ) → Except ListingError (List (String × String))
  | [] => .ok []
  | (entity, result) :: rest =>
    match u.defining? entity with
    | none => .error (.unresolvedKey entity.decl)
    | some d => (namedTokens u rest).map ((d.name, Tokenized.token result) :: ·)

def render (u : SourceUnit) (store : Store ρ) : Except ListingError String :=
  (namedTokens u store.entries).map fun tokens =>
    String.join (tokens.map fun e => write e.1 e.2)

/-- Takes up a line into a store. -/
def loadLine (u : SourceUnit) (store : Store ρ) (line : Line) :
    Except ListingError (Store ρ) :=
  match u.named? line.key with
  | none => .error (.unknownDeclaration line.number line.key)
  | some d =>
    match Tokenized.ofToken? line.token with
    | none => .error (.unparsableResult line.number line.key line.token)
    | some result => .ok (store.assign d.identity result)

def loadLines (u : SourceUnit) (store : Store ρ) : List Line → Except ListingError (Store ρ)
  | [] => .ok store
  | line :: rest =>
    match loadLine u store line with
    | .error e => .error e
    | .ok store => loadLines u store rest

/-- A later line for an entity wins over an earlier one. -/
def load (u : SourceUnit) (text : String) : Except ListingError (Store ρ) :=
  (linesOf text).bind (loadLines u .empty)

/-- Why an expected result is not there. -/
inductive Failure where
  | missingDeclaration (line : Nat) (key : String)
  | missingAnalysis (line : Nat) (key : String)
  | unparsable (line : Nat) (key token : String)
  | mismatch (line : Nat) (key expected actual : String)
deriving DecidableEq

structure Report where
  /-- The number of lines. -/
  checked : Nat
  failures : List Failure
deriving DecidableEq

def Report.isClean (r : Report) : Bool := r.failures.isEmpty

/-- What fails of an expected result. Results are the same when their tokens are. -/
def checkLine (u : SourceUnit) (store : Store ρ) (line : Line) : Option Failure :=
  match u.named? line.key with
  | none => some (.missingDeclaration line.number line.key)
  | some d =>
    match store.get? d.identity with
    | none => some (.missingAnalysis line.number line.key)
    | some actual =>
      match (Tokenized.ofToken? line.token : Option ρ) with
      | none => some (.unparsable line.number line.key line.token)
      | some expected =>
        if Tokenized.token expected = Tokenized.token actual then none
        else
          some (.mismatch line.number line.key (Tokenized.token expected) (Tokenized.token actual))

/-- Compares a store with the results expected of it and reports every line that fails. -/
def check (u : SourceUnit) (store : Store ρ) (text : String) :
    Except ListingError Report :=
  (linesOf text).map fun lines => ⟨lines.length, lines.filterMap (checkLine u store)⟩

end Listing

end InteropWitness

import InteropWitness.Declaration
import InteropWitness.OrderedMap

namespace InteropWitness

/-- The results of one pass by entity, in the order in which the pass met the entities. -/
abbrev Store (ρ : Type) := OrderedMap Identity ρ

inductive PassId where
  | equality
  | ordering
  | stringConversion
deriving DecidableEq, Repr

inductive Phase where
  | unvisited
  | visiting
  | finalizing
  | frozen
deriving DecidableEq, Repr

def Phase.name : Phase → String
  | unvisited => "Unvisited"
  | visiting => "Visiting"
  | finalizing => "Finalizing"
  | frozen => "Frozen"

/-- What is done with a pass in its life. -/
inductive Operation where
  | visit
  | finalize
  | freeze
deriving DecidableEq, Repr

def Operation.name : Operation → String
  | visit => "visit"
  | finalize => "finalize"
  | freeze => "freeze"

/-- Misuse of the machinery. What is analyzed never causes one. -/
inductive Violation where
  | unitCount (n : Nat)
  | passOutOfOrder (pass dependency : PassId)
  | missingDependency (pass dependency : PassId)
  | missingResult (pass : PassId) (decl : DeclId)
  | unresolved (pass : PassId) (decl : DeclId) (name : String)
  | wrongPhase (pass : PassId) (operation : Operation) (phase : Phase)
deriving DecidableEq, Repr

namespace PassId

def name : PassId → String
  | equality => "equality"
  | ordering => "ordering"
  | stringConversion => "string_conversion"

/-- The file that a listing of the results is kept in. -/
def listingFile : PassId → String
  | equality => "Equality.txt"
  | ordering => "Ordering.txt"
  | stringConversion => "StringConversion.txt"

/-- The passes whose results this one reads. -/
def dependencies : PassId → List PassId
  | ordering => [equality]
  | equality | stringConversion => []

/-- The order in which the passes run. -/
def runOrder : List PassId := [equality, ordering, stringConversion]

/-- Every pass comes after those that it depends on, given the passes that came `before`. -/
def checkOrderAfter (before : List PassId) : List PassId → Except Violation Unit
  | [] => .ok ()
  | pass :: rest =>
    match pass.dependencies.find? (· ∉ before) with
    | some dependency => .error (.passOutOfOrder pass dependency)
    | none => checkOrderAfter (pass :: before) rest

def checkOrder (order : List PassId) : Except Violation Unit := checkOrderAfter [] order

end PassId

def Violation.message : Violation → String
  | unitCount n => "expected exactly one translation unit, got " ++ toString n
  | passOutOfOrder pass dependency =>
    "pass " ++ pass.name ++ " requires " ++ dependency.name ++ " to run first"
  | missingDependency pass dependency =>
    "pass " ++ pass.name ++ " read the results of " ++ dependency.name ++
      ", which have not been produced"
  | missingResult pass decl =>
    "pass " ++ pass.name ++ " has no result for " ++ decl.label ++ " during finalize"
  | unresolved pass decl name =>
    "pass " ++ pass.name ++ " left " ++ decl.label ++ " (" ++ name ++
      ") unresolved after finalize"
  | wrongPhase pass operation phase =>
    "pass " ++ pass.name ++ " cannot " ++ operation.name ++ " while " ++ phase.name

inductive Relation where
  | equality
  | ordering
deriving DecidableEq, Repr

namespace Relation

def all : List Relation := [equality, ordering]

def operator : Relation → Operator
  | equality => .equal
  | ordering => .less

def pass : Relation → PassId
  | equality => .equality
  | ordering => .ordering

def name (r : Relation) : String := r.pass.name

end Relation

end InteropWitness

import InteropWitness.Text

namespace InteropWitness

/-- A type whose values are written as a single line of text. -/
class Tokenized (ρ : Type) where
  token : ρ → String
  ofToken? : String → Option ρ

/-- What a pass says of one declaration. -/
class Verdict (ρ : Type) extends Tokenized ρ where
  /-- Not decided yet. -/
  unknown : ρ
  isUnknown : ρ → Bool
  isAvailable : ρ → Bool
  /-- The token without its payload. -/
  tag : ρ → String

/-- Verdicts of the equality and the ordering pass. -/
inductive RelationVerdict where
  | unknown
  | blockedByImport
  | nonCopyable
  | unavailable
  /-- Without equality there is no ordering, whatever witnesses exist. -/
  | blockedByEquality
  | foundByConsumer
  /-- There is a conformant witness, but the consumer is known not to find it. -/
  | missedByConsumer
  | importedAsReference
  | templateSpecialization
  | friendFunction
  | lateInlineMethod
  /-- The witness takes the given types instead of the type itself. -/
  | differentTypes (first second : String)
deriving DecidableEq, Repr

/-- How much the consumer can make of a witness, weakest first. -/
inductive WitnessRank where
  | differentTypes
  | templateSpecialization
  | friendFunction
  | lateInlineMethod
  | foundByConsumer
deriving DecidableEq, Repr

def WitnessRank.level : WitnessRank → Nat
  | differentTypes => 1
  | templateSpecialization => 2
  | friendFunction => 3
  | lateInlineMethod => 4
  | foundByConsumer => 5

namespace RelationVerdict

/-- The rank of a verdict that a witness search proposes. -/
def rank? : RelationVerdict → Option WitnessRank
  | differentTypes _ _ => some .differentTypes
  | templateSpecialization => some .templateSpecialization
  | friendFunction => some .friendFunction
  | lateInlineMethod => some .lateInlineMethod
  | foundByConsumer => some .foundByConsumer
  | _ => none

/-- Verdicts without a rank lie below all ranked ones. -/
def level (v : RelationVerdict) : Nat := v.rank?.elim 0 WitnessRank.level

def isAvailable : RelationVerdict → Bool
  | unknown | blockedByImport | nonCopyable | unavailable | blockedByEquality => false
  | _ => true

def tag : RelationVerdict → String
  | unknown => "unknown"
  | blockedByImport => "noAnalysisBecauseBlockedByImport"
  | nonCopyable => "noAnalysisBecauseNonCopyable"
  | unavailable => "unavailable"
  | blockedByEquality => "unavailableBlockedByEquatable"
  | foundByConsumer => "availableFoundByConsumer"
  | missedByConsumer => "availableButNotFoundByConsumer"
  | importedAsReference => "availableImportedAsReference"
  | templateSpecialization => "availableClassTemplateSpecialization"
  | friendFunction => "availableFriendFunction"
  | lateInlineMethod => "availableInlineMethodDefinedAfterDeclaration"
  | differentTypes _ _ => "availableDifferentArgumentTypes"

/-- The verdicts that are written as their tag alone. -/
def plain : List RelationVerdict :=
  [unknown, blockedByImport, nonCopyable, unavailable, blockedByEquality, foundByConsumer,
    missedByConsumer, importedAsReference, templateSpecialization, friendFunction, lateInlineMethod]

def token (v : RelationVerdict) : String :=
  match v with
  | differentTypes first second => Text.Bracketed.encode [v.tag, first, second]
  | _ => v.tag

def ofToken? (text : String) : Option RelationVerdict :=
  match plain.find? (·.tag = text) with
  | some v => some v
  | none =>
    match Text.Bracketed.decode? text with
    | some [tag, first, second] =>
      if tag = (differentTypes first second).tag then some (differentTypes first second) else none
    | _ => none

end RelationVerdict

instance : Verdict RelationVerdict where
  token := RelationVerdict.token
  ofToken? := RelationVerdict.ofToken?
  unknown := .unknown
  isUnknown v := v = .unknown
  isAvailable := RelationVerdict.isAvailable
  tag := RelationVerdict.tag

/-- How, and whether, the consuming language imports a declaration. It is decided before the witness
passes run. -/
inductive ImportClass where
  | unknown
  | nonPublicHeader
  | templatedRecord
  | templateArguments
  | blockedParent
  | blockedAccess
  | inaccessibleMove
  | inaccessibleDestructor
  | value
  | nonCopyable
  | sharedReference
  | immortalReference
deriving DecidableEq, Repr

namespace ImportClass

def all : List ImportClass :=
  [unknown, nonPublicHeader, templatedRecord, templateArguments, blockedParent, blockedAccess,
    inaccessibleMove, inaccessibleDestructor, value, nonCopyable, sharedReference,
    immortalReference]

def tag : ImportClass → String
  | unknown => "unknown"
  | nonPublicHeader => "blockedByNonPublicHeaderDefinition"
  | templatedRecord => "blockedByTemplatedRecordDecl"
  | templateArguments => "blockedByTemplateInstantiationArgs"
  | blockedParent => "blockedByParent"
  | blockedAccess => "blockedByAccess"
  | inaccessibleMove => "blockedByInaccessibleMove"
  | inaccessibleDestructor => "blockedByInaccessibleDtor"
  | value => "importedAsValue"
  | nonCopyable => "importedAsNonCopyable"
  | sharedReference => "importedAsSharedReference"
  | immortalReference => "importedAsImmortalReference"

def ofTag? (text : String) : Option ImportClass := all.find? (·.tag = text)

/-- Imported in any form. -/
def isImported : ImportClass → Bool
  | value | nonCopyable | sharedReference | immortalReference => true
  | _ => false

def isReference : ImportClass → Bool
  | sharedReference | immortalReference => true
  | _ => false

/-- Imported in a form that an operator can take as an operand. -/
def isCopyable (i : ImportClass) : Bool := i.isImported && i != nonCopyable

end ImportClass

instance : Tokenized ImportClass where
  token := ImportClass.tag
  ofToken? := ImportClass.ofTag?

/-- Verdicts of the string conversion pass. -/
inductive StringVerdict where
  | unknown
  | blockedByImport
  | nonCopyable
  /-- No stream insertion accepts the type or a type it converts to. -/
  | noCandidate
  | streamed
  /-- The description of an enum is made from the names of its cases. -/
  | enumCases
  | objectSubclass
  | specSubclass
  | specHandle
  | metadataMap
  | transformOperation
deriving DecidableEq, Repr

namespace StringVerdict

def all : List StringVerdict :=
  [unknown, blockedByImport, nonCopyable, noCandidate, streamed, enumCases, objectSubclass,
    specSubclass, specHandle, metadataMap, transformOperation]

def isAvailable : StringVerdict → Bool
  | unknown | blockedByImport | nonCopyable | noCandidate => false
  | _ => true

def tag : StringVerdict → String
  | unknown => "unknown"
  | blockedByImport => "noAnalysisBecauseBlockedByImport"
  | nonCopyable => "noAnalysisBecauseNonCopyable"
  | noCandidate => "blockedByNoCandidate"
  | streamed => "available"
  | enumCases => "availableEnum"
  | objectSubclass => "availableObjectSubclass"
  | specSubclass => "availableSpecSubclass"
  | specHandle => "availableSpecHandle"
  | metadataMap => "availableMetadataValueMap"
  | transformOperation => "availableXformOp"

def ofTag? (text : String) : Option StringVerdict := all.find? (·.tag = text)

end StringVerdict

instance : Verdict StringVerdict where
  token := StringVerdict.tag
  ofToken? := StringVerdict.ofTag?
  unknown := .unknown
  isUnknown v := v = .unknown
  isAvailable := StringVerdict.isAvailable
  tag := StringVerdict.tag

/-- The cases of an enum in declaration order. A name holds one value. -/
structure EnumCases where
  isScoped : Bool
  cases : List (String × Int64)
  nodup : (cases.map Prod.fst).Nodup
deriving DecidableEq

/-- A case name met again with another value. -/
structure CaseConflict where
  name : String
  old : Int64
  new : Int64
deriving DecidableEq

def CaseConflict.message (c : CaseConflict) : String :=
  "enum case '" ++ c.name ++ "' redeclared with value " ++ Text.Word64.encode c.new ++ " (was " ++
    Text.Word64.encode c.old ++ ")"

namespace EnumCases

def empty (isScoped : Bool) : EnumCases := ⟨isScoped, [], List.nodup_nil⟩

theorem not_mem_of_lookup {cases : List (String × Int64)} {name : String}
    (h : cases.lookup name = none) : name ∉ cases.map Prod.fst := by
  intro hmem
  obtain ⟨c, hc, rfl⟩ := List.mem_map.1 hmem
  simpa using List.lookup_eq_none_iff.1 h c hc

theorem nodup_concat {cases : List (String × Int64)} {name : String} (value : Int64)
    (hnd : (cases.map Prod.fst).Nodup) (h : name ∉ cases.map Prod.fst) :
    ((cases ++ [(name, value)]).map Prod.fst).Nodup := by
  rw [List.map_append, List.map_singleton, List.nodup_append]
  refine ⟨hnd, by simp, ?_⟩
  intro old hold new hnew heq
  rw [heq, List.mem_singleton.1 hnew] at hold
  exact h hold

def addCase (e : EnumCases) (name : String) (value : Int64) : Except CaseConflict EnumCases :=
  match h : e.cases.lookup name with
  | none =>
    .ok ⟨e.isScoped, e.cases ++ [(name, value)],
      nodup_concat value e.nodup (not_mem_of_lookup h)⟩
  | some old => if old = value then .ok e else .error ⟨name, old, value⟩

def scoping (isScoped : Bool) : String := if isScoped then "scoped" else "unscoped"

def isScoped? (text : String) : Option Bool :=
  if text = scoping true then some true
  else if text = scoping false then some false
  else none

/-- Adds names and values in turn. Reading stops at the first value that is none and at the first
conflict; a name without a value is refused. -/
def addFields (e : EnumCases) : List String → Option (Except CaseConflict EnumCases)
  | [] => some (.ok e)
  | [_] => none
  | name :: value :: rest =>
    match Text.Word64.decode? value with
    | none => none
    | some word =>
      match e.addCase name word with
      | .error conflict => some (.error conflict)
      | .ok e => e.addFields rest

/-- The cases that a token spells, or the conflict between two of them. -/
def read? (token : String) : Option (Except CaseConflict EnumCases) :=
  match Text.Bracketed.decode? token with
  | some (head :: fields) =>
    (isScoped? head).bind fun isScoped =>
      if fields.length % 2 = 0 then (empty isScoped).addFields fields else none
  | _ => none

def ofToken? (token : String) : Option EnumCases :=
  match read? token with
  | some (.ok e) => some e
  | _ => none

def token (e : EnumCases) : String :=
  Text.Bracketed.encode
    (scoping e.isScoped :: e.cases.flatMap fun c => [c.1, Text.Word64.encode c.2])

end EnumCases

instance : Tokenized EnumCases where
  token := EnumCases.token
  ofToken? := EnumCases.ofToken?

end InteropWitness

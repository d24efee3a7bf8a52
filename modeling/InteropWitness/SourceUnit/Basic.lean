import InteropWitness.Declaration
import InteropWitness.OrderedMap

namespace InteropWitness

inductive UnitError where
  /-- The text of a dump does not spell declarations and types. -/
  | undecodable
  | nonDenseId (position : Nat) (id : DeclId)
  | danglingDefinition (decl target : DeclId)
  | nonCanonicalDefinition (decl target : DeclId)
  | unknownType (decl : DeclId) (name : String) (ty : TypeKey)
  | danglingTypeDecl (ty : TypeKey) (target : DeclId)
  | conflictingType (ty : TypeKey)
deriving DecidableEq, Repr

def UnitError.message : UnitError → String
  | undecodable => "failed to decode translation unit"
  | nonDenseId position id =>
    "declaration at position " ++ toString position ++ " carries id " ++ id.label
  | danglingDefinition decl target =>
    decl.label ++ " refers to missing definition " ++ target.label
  | nonCanonicalDefinition decl target =>
    decl.label ++ " names " ++ target.label ++ " as definition, but " ++ target.label ++
      " is itself a redeclaration"
  | unknownType decl name ty =>
    decl.label ++ " (" ++ name ++ ") refers to unregistered type '" ++ ty ++ "'"
  | danglingTypeDecl ty target =>
    "type '" ++ ty ++ "' refers to missing declaration " ++ target.label
  | conflictingType ty => "type '" ++ ty ++ "' registered twice with different kinds"

abbrev TypeTable := OrderedMap TypeKey TypeKind

/-- The table of the given types. A type may be repeated, but not with another kind. -/
def TypeTable.ofList : List TypeInfo → TypeTable → Except UnitError TypeTable
  | [], table => .ok table
  | info :: rest, table =>
    match table.get? info.key with
    | none => ofList rest (table.assign info.key info.kind)
    | some kind =>
      if kind = info.kind then ofList rest table else .error (.conflictingType info.key)

/-- What holds of the declarations and types of every unit. -/
structure WellFormed (decls : List Decl) (types : TypeTable) : Prop where
  /-- Ids are positions. -/
  dense : ∀ (i : Nat) (d : Decl), decls[i]? = some d → d.id.index = i
  /-- Record and enum types have a declaration. -/
  tagged : ∀ key kind target, (key, kind) ∈ types.entries → kind.tagDecl? = some target →
    target.index < decls.length
  /-- A definition is there, and names no definition other than itself. -/
  defined : ∀ d ∈ decls, ∀ target, d.definition = some target →
    ∃ definition, decls[target.index]? = some definition ∧
      (definition.definition = none ∨ definition.definition = some target)
  /-- Types that a declaration refers to are in the table. -/
  registered : ∀ d ∈ decls, ∀ ty ∈ d.referencedTypes, ty ∈ types.keys

namespace WellFormed

/-- The first declaration at a position other than its id. -/
def positionFault? (start : Nat) : List Decl → Option UnitError
  | [] => none
  | d :: rest =>
    if d.id.index = start then positionFault? (start + 1) rest
    else some (.nonDenseId start d.id)

def typeFault? (decls : List Decl) (entry : TypeKey × TypeKind) : Option UnitError :=
  entry.2.tagDecl?.bind fun target =>
    if target.index < decls.length then none else some (.danglingTypeDecl entry.1 target)

def definitionFault? (decls : List Decl) (d : Decl) : Option UnitError :=
  d.definition.bind fun target =>
    match decls[target.index]? with
    | none => some (.danglingDefinition d.id target)
    | some definition =>
      if definition.definition = none ∨ definition.definition = some target then none
      else some (.nonCanonicalDefinition d.id target)

def referenceFault? (types : TypeTable) (d : Decl) : Option UnitError :=
  (d.referencedTypes.find? fun ty => !types.contains ty).map (.unknownType d.id d.name)

/-- The first fault of declarations and types. -/
def fault? (decls : List Decl) (types : TypeTable) : Option UnitError :=
  (positionFault? 0 decls).or <| (types.entries.findSome? (typeFault? decls)).or <|
    decls.findSome? fun d => (definitionFault? decls d).or (referenceFault? types d)

theorem positionFault?_eq_none_iff {start : Nat} {decls : List Decl} :
    positionFault? start decls = none ↔
      ∀ i d, decls[i]? = some d → d.id.index = start + i := by
  induction decls generalizing start with
  | nil => simp [positionFault?]
  | cons d rest ih =>
    unfold positionFault?
    split
    · next h =>
      rw [ih]
      constructor
      · intro hr i d' hd
        cases i with
        | zero => simp at hd; simp [← hd, h]
        | succ i =>
          have := hr i d' (by simpa using hd)
          omega
      · intro hr i d' hd
        have := hr (i + 1) d' (by simpa using hd)
        omega
    · next h =>
      simp only [reduceCtorEq, false_iff]
      exact fun hr => h (by simpa using hr 0 d (by simp))

theorem typeFault?_eq_none_iff {decls : List Decl} {entry : TypeKey × TypeKind} :
    typeFault? decls entry = none ↔
      ∀ target, entry.2.tagDecl? = some target → target.index < decls.length := by
  unfold typeFault?
  cases entry.2.tagDecl? <;> simp

theorem definitionFault?_eq_none_iff {decls : List Decl} {d : Decl} :
    definitionFault? decls d = none ↔
      ∀ target, d.definition = some target →
        ∃ definition, decls[target.index]? = some definition ∧
          (definition.definition = none ∨ definition.definition = some target) := by
  unfold definitionFault?
  cases d.definition with
  | none => simp
  | some target =>
    cases h : decls[target.index]? with
    | none => simp [h]
    | some definition => simp [h, Classical.or_iff_not_imp_left]

theorem referenceFault?_eq_none_iff {types : TypeTable} {d : Decl} :
    referenceFault? types d = none ↔ ∀ ty ∈ d.referencedTypes, ty ∈ types.keys := by
  simp [referenceFault?, OrderedMap.contains_iff]

theorem fault?_eq_none_iff {decls : List Decl} {types : TypeTable} :
    fault? decls types = none ↔ WellFormed decls types := by
  simp only [fault?, Option.or_eq_none_iff, List.findSome?_eq_none_iff,
    positionFault?_eq_none_iff, typeFault?_eq_none_iff, definitionFault?_eq_none_iff,
    referenceFault?_eq_none_iff, Nat.zero_add]
  constructor
  · rintro ⟨hp, ht, hd⟩
    exact ⟨hp, fun key kind target h => ht (key, kind) h target, fun d h => (hd d h).1,
      fun d h => (hd d h).2⟩
  · intro h
    exact ⟨h.dense, fun e he target => h.tagged e.1 e.2 target he,
      fun d hd => ⟨h.defined d hd, h.registered d hd⟩⟩

end WellFormed

/-- Declarations in the order of traversal, and the table of their types. -/
structure SourceUnit where
  decls : List Decl
  types : TypeTable
  wellFormed : WellFormed decls types

namespace SourceUnit

/-- The unit of the given declarations and types, or the first fault. -/
def assemble (decls : List Decl) (types : List TypeInfo) : Except UnitError SourceUnit :=
  match TypeTable.ofList types .empty with
  | .error e => .error e
  | .ok table =>
    match h : WellFormed.fault? decls table with
    | some e => .error e
    | none => .ok ⟨decls, table, WellFormed.fault?_eq_none_iff.1 h⟩

variable (u : SourceUnit)

def ids : List DeclId := u.decls.map (·.id)

def decl? (id : DeclId) : Option Decl := u.decls[id.index]?

def typeKind? (ty : TypeKey) : Option TypeKind := u.types.get? ty

def identity? (id : DeclId) : Option Identity := (u.decl? id).map (·.identity)

/-- The declaration that an identity stands for. -/
def defining? (entity : Identity) : Option Decl := u.decl? entity.decl

/-- The first declaration with the name. -/
def named? (name : String) : Option Decl := u.decls.find? (·.name = name)

/-- The declaration of a record or enum type. -/
def tagDecl? (ty : TypeKey) : Option Decl :=
  (u.typeKind? ty).bind fun kind => kind.tagDecl?.bind u.decl?

def isBool (ty : TypeKey) : Bool := (u.typeKind? ty).any (·.isBool)

def isBuiltin (ty : TypeKey) : Bool := (u.typeKind? ty).any (·.isBuiltin)

def isArithmetic (ty : TypeKey) : Bool := (u.typeKind? ty).any (·.isArithmetic)

/-- The definition of the entity that `id` declares, if it is a record. -/
def definingRecord? (id : DeclId) : Option (Decl × RecordDecl) :=
  (u.identity? id).bind fun entity =>
    (u.defining? entity).bind fun d => d.record?.map fun r => (d, r)

/-- The definition of a record type. -/
def recordOfType? (ty : TypeKey) : Option (Decl × RecordDecl) :=
  match u.typeKind? ty with
  | some (.record id) => u.definingRecord? id
  | _ => none

/-- The self type of the template that a type is a specialization of. -/
def injectedSelfType? (ty : TypeKey) : Option TypeKey :=
  (u.recordOfType? ty).bind fun (_, r) => r.specialization.map (·.selfType)

end SourceUnit

end InteropWitness

namespace InteropWitness

/-- Position of a declaration in the order of traversal. -/
structure DeclId where
  word : UInt32
deriving DecidableEq, Repr

namespace DeclId

def index (id : DeclId) : Nat := id.word.toNat

/-- Positions count modulo 2^32. -/
def ofIndex (n : Nat) : DeclId := ⟨UInt32.ofNat n⟩

def label (id : DeclId) : String := "decl#" ++ toString id.index

end DeclId

/-- The canonical spelling of a type. Types are ordered by their spellings, character by character.
-/
abbrev TypeKey := String

inductive BuiltinKind where
  | void
  | bool
  | char
  | integer
  | floating
  | other
deriving DecidableEq, Repr

/-- What a type denotes. -/
inductive TypeKind where
  | builtin (kind : BuiltinKind)
  | record (decl : DeclId)
  | enumeration (decl : DeclId) (isScoped : Bool)
  /-- A type with template parameters in it, such as the self type of a class template. -/
  | dependent
  | other
deriving DecidableEq, Repr

namespace TypeKind

def isBuiltin : TypeKind → Bool
  | builtin _ => true
  | _ => false

def isBool (kind : TypeKind) : Bool := kind = builtin .bool

/-- Builtin numbers, and unscoped enums, which promote to one. -/
def isArithmetic : TypeKind → Bool
  | builtin kind => kind = .bool || kind = .char || kind = .integer || kind = .floating
  | enumeration _ isScoped => !isScoped
  | _ => false

/-- The declaration of a record or enum type. -/
def tagDecl? : TypeKind → Option DeclId
  | record decl | enumeration decl _ => some decl
  | _ => none

end TypeKind

/-- An entry of the type table. -/
structure TypeInfo where
  key : TypeKey
  kind : TypeKind
deriving DecidableEq, Repr

inductive Reference where
  | byValue
  | lvalue
  | rvalue
deriving DecidableEq, Repr

/-- A type with the qualifiers of a parameter, a result or a conversion. -/
structure QualType where
  ty : TypeKey
  isConst : Bool
  reference : Reference
deriving DecidableEq, Repr

namespace QualType

def value (ty : TypeKey) : QualType := ⟨ty, false, .byValue⟩

def constRef (ty : TypeKey) : QualType := ⟨ty, true, .lvalue⟩

def mutRef (ty : TypeKey) : QualType := ⟨ty, false, .lvalue⟩

def isReference (q : QualType) : Bool := q.reference != .byValue

/-- The type that a constant reference refers to. -/
def constReferent? (q : QualType) : Option TypeKey :=
  if q.isReference && q.isConst then some q.ty else none

end QualType

/-- Access of a member, a base or a conversion. -/
inductive Access where
  | publicAccess
  | protectedAccess
  | privateAccess
  /-- No access applies, as in a namespace. -/
  | unspecified
deriving DecidableEq, Repr

/-- Protected and private members are hidden from the consumer. -/
def Access.isVisible : Access → Bool
  | protectedAccess | privateAccess => false
  | _ => true

structure BaseSpecifier where
  ty : TypeKey
  access : Access
deriving DecidableEq, Repr

/-- A conversion operator of a record. -/
structure ConversionOperator where
  target : QualType
  access : Access
  isExplicit : Bool
  isConst : Bool
  isDeleted : Bool
  paramCount : UInt64
deriving DecidableEq

namespace ConversionOperator

/-- An implicit, constant conversion without parameters. -/
def plain (target : TypeKey) (access : Access) : ConversionOperator :=
  ⟨.value target, access, false, true, false, 0⟩

/-- The consumer applies the conversion on its own. -/
def isApplied (c : ConversionOperator) : Bool :=
  !c.isDeleted && c.access.isVisible && !c.isExplicit && c.isConst && c.paramCount = 0

end ConversionOperator

/-- What makes a record a specialization of a class template. -/
structure Specialization where
  template : String
  /-- The type that the template has inside itself, shared by all its specializations. -/
  selfType : TypeKey
  args : List TypeKey
deriving DecidableEq, Repr

structure RecordDecl where
  ty : TypeKey
  bases : List BaseSpecifier
  conversions : List ConversionOperator
  specialization : Option Specialization
deriving DecidableEq

structure EnumDecl where
  ty : TypeKey
  isScoped : Bool
deriving DecidableEq, Repr

/-- The overloaded operators that matter, and all others. -/
inductive Operator where
  | equal
  | less
  | insertion
  | other
deriving DecidableEq, Repr

/-- What makes a function a member. -/
structure MethodInfo where
  parent : TypeKey
  isConst : Bool
deriving DecidableEq, Repr

structure FunctionDecl where
  operator : Option Operator
  params : List QualType
  returnType : QualType
  method : Option MethodInfo
  access : Access
  isDeleted : Bool
  isFriend : Bool
  /-- Declared inline and defined only after the class. -/
  isLateInline : Bool
deriving DecidableEq

namespace FunctionDecl

def isMethod (f : FunctionDecl) : Bool := f.method.isSome

def isVisible (f : FunctionDecl) : Bool := !f.isDeleted && f.access.isVisible

end FunctionDecl

inductive DeclKind where
  | record (r : RecordDecl)
  | enumeration (e : EnumDecl)
  | function (f : FunctionDecl)
  | other
deriving DecidableEq

/-- A declaration may name another one as its definition; all that name the same one are the same
entity. -/
structure Decl where
  id : DeclId
  /-- The qualified name, by which listings refer to the declaration. -/
  name : String
  definition : Option DeclId
  /-- First declared inside the library under analysis. -/
  inLibrary : Bool
  kind : DeclKind
deriving DecidableEq

/-- What all redeclarations of an entity share: the position of its definition. -/
structure Identity where
  decl : DeclId
deriving DecidableEq, Repr

namespace Decl

def identity (d : Decl) : Identity := ⟨d.definition.getD d.id⟩

def record? (d : Decl) : Option RecordDecl :=
  match d.kind with
  | .record r => some r
  | _ => none

def enumeration? (d : Decl) : Option EnumDecl :=
  match d.kind with
  | .enumeration e => some e
  | _ => none

def function? (d : Decl) : Option FunctionDecl :=
  match d.kind with
  | .function f => some f
  | _ => none

/-- The type that a record or enum declares. -/
def tagType? (d : Decl) : Option TypeKey :=
  match d.kind with
  | .record r => some r.ty
  | .enumeration e => some e.ty
  | _ => none

def specialization? (d : Decl) : Option Specialization := d.record?.bind (·.specialization)

/-- Every type that the declaration refers to. -/
def referencedTypes (d : Decl) : List TypeKey :=
  match d.kind with
  | .record r =>
    r.ty :: r.bases.map (·.ty) ++ r.conversions.map (·.target.ty) ++
      (match r.specialization with
        | some s => s.selfType :: s.args
        | none => [])
  | .enumeration e => [e.ty]
  | .function f =>
    f.params.map (·.ty) ++ f.returnType.ty ::
      (match f.method with
        | some m => [m.parent]
        | none => [])
  | .other => []

end Decl

end InteropWitness

import InteropWitness.SourceUnit.Basic

namespace InteropWitness

structure RecordSpec where
  inLibrary : Bool
  bases : List BaseSpecifier
  conversions : List ConversionOperator
  specialization : Option Specialization

def RecordSpec.selfType? (spec : RecordSpec) : Option TypeKey :=
  spec.specialization.map (·.selfType)

structure FunctionSpec where
  inLibrary : Bool
  decl : FunctionDecl

namespace FunctionSpec

/-- A function in a namespace that takes and returns nothing. -/
def plain : FunctionSpec where
  inLibrary := false
  decl := {
    operator := none
    params := []
    returnType := .value "void"
    method := none
    access := .unspecified
    isDeleted := false
    isFriend := false
    isLateInline := false }

def setAccess (f : FunctionSpec) (access : Access) : FunctionSpec :=
  { f with decl := { f.decl with access } }

/-- Makes the function a member, public unless it has another access. -/
def ofRecord (f : FunctionSpec) (parent : TypeKey) (isConst : Bool) : FunctionSpec :=
  let access := if f.decl.access = .unspecified then .publicAccess else f.decl.access
  { f with decl := { f.decl with method := some ⟨parent, isConst⟩, access } }

end FunctionSpec

namespace SourceUnit

inductive Step where
  | builtin (name : TypeKey) (kind : BuiltinKind)
  | dependent (name : TypeKey)
  /-- A type that the analysis does not look into, such as a pointer. -/
  | plainType (name : TypeKey)
  /-- The self types are those of specializations that a later one replaced. -/
  | record (name : String) (spec : RecordSpec) (selfTypes : List TypeKey := [])
  | enumeration (name : String) (isScoped inLibrary : Bool)
  | function (name : String) (spec : FunctionSpec)
  /-- A declaration that the analysis does not look into, such as a namespace. -/
  | other (name : String) (inLibrary : Bool)
  | redeclare (earlier : DeclId)

/-- A unit in the making. Of several types with one spelling the first registered counts. -/
structure Builder where
  decls : List Decl
  types : TypeTable

namespace Builder

def builtins : List (TypeKey × BuiltinKind) :=
  [("void", .void), ("bool", .bool), ("char", .char), ("int", .integer), ("unsigned int", .integer),
    ("long", .integer), ("float", .floating), ("double", .floating)]

def register (b : Builder) (key : TypeKey) (kind : TypeKind) : Builder :=
  { b with types := b.types.insertNew key kind }

def initial : Builder :=
  builtins.foldl (fun b t => b.register t.1 (.builtin t.2)) ⟨[], .empty⟩

def nextId (b : Builder) : DeclId := .ofIndex b.decls.length

/-- Declares a new entity. -/
def declare (b : Builder) (name : String) (inLibrary : Bool) (kind : DeclKind) : Builder :=
  { b with decls := b.decls ++ [⟨b.nextId, name, none, inLibrary, kind⟩] }

/-- Declares the entity of an earlier declaration again. Without such a declaration the new one
refers to a definition that is not there yet: whatever will stand at that place, if anything. -/
def redeclare (b : Builder) (earlier : DeclId) : Builder :=
  let decl := match b.decls[earlier.index]? with
    | some d => { d with id := b.nextId, definition := some (d.definition.getD d.id) }
    | none => ⟨b.nextId, "", some earlier, false, .other⟩
  { b with decls := b.decls ++ [decl] }

def registerSelfTypes (b : Builder) (selfTypes : List TypeKey) : Builder :=
  selfTypes.foldl (fun b ty => b.register ty .dependent) b

def addRecord (b : Builder) (name : String) (spec : RecordSpec) (selfTypes : List TypeKey) :
    Builder :=
  let registered := b.register name (.record b.nextId)
  let registered := registered.registerSelfTypes (selfTypes ++ spec.selfType?.toList)
  registered.declare name spec.inLibrary
    (.record ⟨name, spec.bases, spec.conversions, spec.specialization⟩)

def addEnumeration (b : Builder) (name : String) (isScoped inLibrary : Bool) : Builder :=
  (b.register name (.enumeration b.nextId isScoped)).declare name inLibrary
    (.enumeration ⟨name, isScoped⟩)

def apply (b : Builder) : Step → Builder
  | .builtin name kind => b.register name (.builtin kind)
  | .dependent name => b.register name .dependent
  | .plainType name => b.register name .other
  | .record name spec selfTypes => b.addRecord name spec selfTypes
  | .enumeration name isScoped inLibrary => b.addEnumeration name isScoped inLibrary
  | .function name spec => b.declare name spec.inLibrary (.function spec.decl)
  | .other name inLibrary => b.declare name inLibrary .other
  | .redeclare earlier => b.redeclare earlier

end Builder

/-- The unit that the steps declare. -/
def build (steps : List Step) : Except UnitError SourceUnit :=
  let b := steps.foldl Builder.apply .initial
  assemble b.decls (b.types.entries.map fun e => ⟨e.1, e.2⟩)

end SourceUnit

end InteropWitness

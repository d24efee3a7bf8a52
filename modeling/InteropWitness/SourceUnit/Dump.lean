import InteropWitness.Json.Decode
import InteropWitness.Json.Parser
import InteropWitness.SourceUnit.Basic

namespace InteropWitness

open Json

def DeclId.toJson (id : DeclId) : Json := .ofNat id.index

def DeclId.ofJson? (v : Json) : Option DeclId := (v.natural? UInt32.size).map .ofIndex

def optionToJson {α : Type} (encode : α → Json) : Option α → Json
  | some a => encode a
  | none => .null

namespace BuiltinKind

def all : List BuiltinKind := [void, bool, char, integer, floating, other]

def spelling : BuiltinKind → String
  | void => "void"
  | bool => "bool"
  | char => "char"
  | integer => "integer"
  | floating => "floating"
  | other => "other"

def ofJson? : Json → Option BuiltinKind := storedChoice? (all.map fun k => (k.spelling, k))

end BuiltinKind

namespace Access

def all : List Access := [publicAccess, protectedAccess, privateAccess, unspecified]

def spelling : Access → String
  | publicAccess => "public"
  | protectedAccess => "protected"
  | privateAccess => "private"
  | unspecified => "none"

def ofJson? : Json → Option Access := storedChoice? (all.map fun a => (a.spelling, a))

end Access

namespace Reference

def all : List Reference := [byValue, lvalue, rvalue]

def spelling : Reference → String
  | byValue => "none"
  | lvalue => "l_value"
  | rvalue => "r_value"

def ofJson? : Json → Option Reference := storedChoice? (all.map fun r => (r.spelling, r))

end Reference

namespace Operator

def all : List Operator := [equal, less, insertion, other]

def spelling : Operator → String
  | equal => "equal_equal"
  | less => "less"
  | insertion => "less_less"
  | other => "other"

def ofJson? : Json → Option Operator := storedChoice? (all.map fun o => (o.spelling, o))

end Operator

namespace QualType

def toJson (q : QualType) : Json :=
  record [("ty", ofText q.ty), ("is_const", bool q.isConst),
    ("reference", ofText q.reference.spelling)]

def ofJson? (v : Json) : Option QualType := do
  let members ← v.fields? ["ty", "is_const", "reference"]
  let ty ← required? members "ty" text?
  let isConst ← withDefault? members "is_const" false bool?
  let reference ← withDefault? members "reference" .byValue Reference.ofJson?
  return ⟨ty, isConst, reference⟩

end QualType

namespace BaseSpecifier

def toJson (b : BaseSpecifier) : Json :=
  record [("ty", ofText b.ty), ("access", ofText b.access.spelling)]

def ofJson? (v : Json) : Option BaseSpecifier := do
  let members ← v.fields? ["ty", "access"]
  let ty ← required? members "ty" text?
  let access ← required? members "access" Access.ofJson?
  return ⟨ty, access⟩

end BaseSpecifier

namespace ConversionOperator

def toJson (c : ConversionOperator) : Json :=
  record [("target", c.target.toJson), ("access", ofText c.access.spelling),
    ("is_explicit", bool c.isExplicit), ("is_const", bool c.isConst),
    ("is_deleted", bool c.isDeleted), ("param_count", ofNat c.paramCount.toNat)]

def ofJson? (v : Json) : Option ConversionOperator := do
  let members ←
    v.fields? ["target", "access", "is_explicit", "is_const", "is_deleted", "param_count"]
  let target ← required? members "target" QualType.ofJson?
  let access ← required? members "access" Access.ofJson?
  let isExplicit ← withDefault? members "is_explicit" false bool?
  let isConst ← withDefault? members "is_const" false bool?
  let isDeleted ← withDefault? members "is_deleted" false bool?
  let paramCount ← withDefault? members "param_count" 0 (natural? UInt64.size)
  return ⟨target, access, isExplicit, isConst, isDeleted, .ofNat paramCount⟩

end ConversionOperator

namespace Specialization

def toJson (s : Specialization) : Json :=
  record [("template", ofText s.template), ("self_type", ofText s.selfType),
    ("args", array (s.args.map ofText))]

def ofJson? (v : Json) : Option Specialization := do
  let members ← v.fields? ["template", "self_type", "args"]
  let template ← required? members "template" text?
  let selfType ← required? members "self_type" text?
  let args ← withDefault? members "args" [] (list? text?)
  return ⟨template, selfType, args⟩

end Specialization

namespace MethodInfo

def toJson (m : MethodInfo) : Json :=
  record [("parent", ofText m.parent), ("is_const", bool m.isConst)]

def ofJson? (v : Json) : Option MethodInfo := do
  let members ← v.fields? ["parent", "is_const"]
  let parent ← required? members "parent" text?
  let isConst ← withDefault? members "is_const" false bool?
  return ⟨parent, isConst⟩

end MethodInfo

namespace DeclKind

def recordMembers (r : RecordDecl) : List (String × Json) :=
  [("ty", ofText r.ty), ("bases", array (r.bases.map BaseSpecifier.toJson)),
    ("conversions", array (r.conversions.map ConversionOperator.toJson)),
    ("specialization", optionToJson Specialization.toJson r.specialization)]

def recordOfMembers? (members : List (String × Json)) : Option RecordDecl := do
  let ty ← required? members "ty" text?
  let bases ← withDefault? members "bases" [] (list? BaseSpecifier.ofJson?)
  let conversions ← withDefault? members "conversions" [] (list? ConversionOperator.ofJson?)
  let specialization ←
    withDefault? members "specialization" none (nullable? Specialization.ofJson?)
  return ⟨ty, bases, conversions, specialization⟩

def enumMembers (e : EnumDecl) : List (String × Json) :=
  [("ty", ofText e.ty), ("scoped", bool e.isScoped)]

def enumOfMembers? (members : List (String × Json)) : Option EnumDecl := do
  let ty ← required? members "ty" text?
  let isScoped ← withDefault? members "scoped" false bool?
  return ⟨ty, isScoped⟩

def functionMembers (f : FunctionDecl) : List (String × Json) :=
  [("operator", optionToJson (fun o => ofText (Operator.spelling o)) f.operator),
    ("params", array (f.params.map QualType.toJson)), ("return_type", f.returnType.toJson),
    ("method", optionToJson MethodInfo.toJson f.method), ("access", ofText f.access.spelling),
    ("is_deleted", bool f.isDeleted), ("is_friend", bool f.isFriend),
    ("inline_defined_after_declaration", bool f.isLateInline)]

/-- Flags default to false, and optional parts may be absent or null. -/
def functionOfMembers? (members : List (String × Json)) : Option FunctionDecl := do
  let operator ← withDefault? members "operator" none (nullable? Operator.ofJson?)
  let params ← withDefault? members "params" [] (list? QualType.ofJson?)
  let returnType ← required? members "return_type" QualType.ofJson?
  let method ← withDefault? members "method" none (nullable? MethodInfo.ofJson?)
  let access ← withDefault? members "access" .unspecified Access.ofJson?
  let isDeleted ← withDefault? members "is_deleted" false bool?
  let isFriend ← withDefault? members "is_friend" false bool?
  let isLateInline ← withDefault? members "inline_defined_after_declaration" false bool?
  return ⟨operator, params, returnType, method, access, isDeleted, isFriend, isLateInline⟩

def toJson : DeclKind → Json
  | record r => Json.record (("decl", ofText "record") :: recordMembers r)
  | enumeration e => Json.record (("decl", ofText "enum") :: enumMembers e)
  | function f => Json.record (("decl", ofText "function") :: functionMembers f)
  | other => Json.record [("decl", ofText "other")]

/-- The order of the members beside each tag. -/
def memberOrder : List (String × List String) :=
  [("record", ["ty", "bases", "conversions", "specialization"]), ("enum", ["ty", "scoped"]),
    ("function", ["operator", "params", "return_type", "method", "access", "is_deleted",
      "is_friend", "inline_defined_after_declaration"]),
    ("other", [])]

def ofMembers? (tag : String) (members : List (String × Json)) : Option DeclKind :=
  match tag with
  | "record" => (recordOfMembers? members).map record
  | "enum" => (enumOfMembers? members).map enumeration
  | "function" => (functionOfMembers? members).map function
  | "other" => some other
  | _ => none

/-- How many containers enclose the members of a kind in a dump: the dump, the list of declarations,
the declaration and the kind itself. -/
def level : Nat := 4

/-- A kind is an object with its tag among the members, or a list that its tag opens. -/
def ofJson? : Json → Option DeclKind
  | .array (first :: items) => do
    let tag ← first.text?
    let order ← memberOrder.lookup tag
    if items.all (isStorable (maximalDepth - level)) then
      (fields? order (.array items)).bind (ofMembers? tag)
    else none
  | v => do
    let members ← storedMembers? level "decl" v
    ofMembers? (← required? members "decl" text?) members

end DeclKind

namespace Decl

def toJson (d : Decl) : Json :=
  record [("id", d.id.toJson), ("name", ofText d.name),
    ("definition", optionToJson DeclId.toJson d.definition),
    ("in_target_library", bool d.inLibrary), ("kind", d.kind.toJson)]

def ofJson? (v : Json) : Option Decl := do
  let members ← v.fields? ["id", "name", "definition", "in_target_library", "kind"]
  let id ← required? members "id" DeclId.ofJson?
  let name ← required? members "name" text?
  let definition ← withDefault? members "definition" none (nullable? DeclId.ofJson?)
  let inLibrary ← withDefault? members "in_target_library" false bool?
  let kind ← required? members "kind" DeclKind.ofJson?
  return ⟨id, name, definition, inLibrary, kind⟩

end Decl

namespace TypeInfo

/-- The tags of the kinds of types. -/
def tags : List String := ["builtin", "record", "enum", "dependent", "other"]

/-- The tag of a kind and the members beside it. -/
def kindMembers : TypeKind → List (String × Json)
  | .builtin kind => [("kind", ofText "builtin"), ("builtin", ofText kind.spelling)]
  | .record decl => [("kind", ofText "record"), ("decl", decl.toJson)]
  | .enumeration decl isScoped =>
    [("kind", ofText "enum"), ("decl", decl.toJson), ("scoped", bool isScoped)]
  | .dependent => [("kind", ofText "dependent")]
  | .other => [("kind", ofText "other")]

def kindOfMembers? (members : List (String × Json)) : Option TypeKind := do
  match ← required? members "kind" (tag? tags) with
  | "builtin" => (required? members "builtin" BuiltinKind.ofJson?).map .builtin
  | "record" => (required? members "decl" DeclId.ofJson?).map .record
  | "enum" =>
    let decl ← required? members "decl" DeclId.ofJson?
    let isScoped ← required? members "scoped" bool?
    return .enumeration decl isScoped
  | "dependent" => some .dependent
  | "other" => some .other
  | _ => none

def toJson (t : TypeInfo) : Json := record (("key", ofText t.key) :: kindMembers t.kind)

/-- Three containers enclose the members of a type in a dump: the dump, the list of types and the
type itself. -/
def ofJson? (v : Json) : Option TypeInfo := do
  let members ← storedMembers? 3 "key" v
  let key ← required? members "key" text?
  let kind ← kindOfMembers? members
  return ⟨key, kind⟩

end TypeInfo

end InteropWitness

namespace InteropWitness.SourceUnit

open Json

def toJson (u : SourceUnit) : Json :=
  record [("decls", array (u.decls.map Decl.toJson)),
    ("types", array (u.types.entries.map fun e => TypeInfo.toJson ⟨e.1, e.2⟩))]

def dump (u : SourceUnit) : String := u.toJson.print

/-- The declarations and types in a dump. -/
def partsOfJson? (v : Json) : Option (List Decl × List TypeInfo) := do
  let members ← v.fields? ["decls", "types"]
  let decls ← required? members "decls" (list? Decl.ofJson?)
  let types ← required? members "types" (list? TypeInfo.ofJson?)
  return (decls, types)

/-- The unit that a dump describes. -/
def load (text : String) : Except UnitError SourceUnit :=
  match (parse? text).bind partsOfJson? with
  | none => .error .undecodable
  | some (decls, types) => assemble decls types

end InteropWitness.SourceUnit

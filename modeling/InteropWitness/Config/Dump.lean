import InteropWitness.Config.Basic
import InteropWitness.Json.Decode
import InteropWitness.Json.Parser

namespace InteropWitness

open Json

namespace RelationOverride

def Action.all : List Action := [forceUnavailable, missedByConsumer]

def Action.spelling : Action → String
  | forceUnavailable => "force_unavailable"
  | missedByConsumer => "not_found_by_consumer"

def toJson (o : RelationOverride) : Json :=
  record [("type_name", ofText o.typeName), ("action", ofText o.action.spelling),
    ("relation", match o.relation with
      | some r => ofText r.name
      | none => .null)]

def ofJson? (v : Json) : Option RelationOverride := do
  let members ← v.fields? ["type_name", "action", "relation"]
  let typeName ← required? members "type_name" text?
  let action ← required? members "action" (choice? (Action.all.map fun a => (a.spelling, a)))
  let relation ← withDefault? members "relation" none
    (nullable? (choice? (Relation.all.map fun r => (r.name, r))))
  return ⟨typeName, action, relation⟩

end RelationOverride

namespace RecordMatcher

/-- The tags of the matchers. -/
def tags : List String := ["self_or_subclass", "handle_of", "exact"]

/-- The tag of a matcher and the members beside it. -/
def toMembers : RecordMatcher → List (String × Json)
  | selfOrSubclass base => [("match", ofText "self_or_subclass"), ("base", ofText base)]
  | handleOf template base =>
    [("match", ofText "handle_of"), ("template", ofText template), ("base", ofText base)]
  | exact typeName => [("match", ofText "exact"), ("type_name", ofText typeName)]

def ofMembers? (members : List (String × Json)) : Option RecordMatcher := do
  match ← required? members "match" (tag? tags) with
  | "self_or_subclass" => (required? members "base" text?).map selfOrSubclass
  | "handle_of" =>
    let template ← required? members "template" text?
    let base ← required? members "base" text?
    return handleOf template base
  | "exact" => (required? members "type_name" text?).map exact
  | _ => none

end RecordMatcher

namespace StringOverride

def toJson (o : StringOverride) : Json :=
  record (o.matcher.toMembers ++ [("result", ofText o.verdict.tag)])

/-- Reads an entry whose members are enclosed by `level` containers. -/
def ofJson? (level : Nat) (v : Json) : Option StringOverride := do
  let members ← storedMembers? level "result" v
  let matcher ← RecordMatcher.ofMembers? members
  let verdict ← required? members "result" (choice? (StringVerdict.all.map fun v => (v.tag, v)))
  return ⟨matcher, verdict⟩

end StringOverride

/-- A list of relation overrides by itself. -/
def RelationOverride.listOfText? (text : String) : Option (List RelationOverride) :=
  (parse? text).bind (list? RelationOverride.ofJson?)

/-- A list of string conversion overrides by itself. -/
def StringOverride.listOfText? (text : String) : Option (List StringOverride) :=
  (parse? text).bind (list? (StringOverride.ofJson? 2))

namespace Config

def toJson (c : Config) : Json :=
  record [("stream_type", ofText c.streamType), ("library_namespace", ofText c.libraryNamespace),
    ("relation_overrides", array (c.relationOverrides.map RelationOverride.toJson)),
    ("string_overrides", array (c.stringOverrides.map StringOverride.toJson))]

/-- A part that is not given has its default. -/
def ofJson? (v : Json) : Option Config := do
  let members ←
    v.fields? ["stream_type", "library_namespace", "relation_overrides", "string_overrides"]
  let streamType ← withDefault? members "stream_type" default.streamType text?
  let libraryNamespace ← withDefault? members "library_namespace" default.libraryNamespace text?
  let relationOverrides ←
    withDefault? members "relation_overrides" default.relationOverrides
      (list? RelationOverride.ofJson?)
  let stringOverrides ←
    withDefault? members "string_overrides" default.stringOverrides
      (list? (StringOverride.ofJson? 3))
  return ⟨streamType, libraryNamespace, relationOverrides, stringOverrides⟩

/-- The configuration that a text spells, whether it has faults or not. -/
def decode? (text : String) : Option Config := (parse? text).bind ofJson?

/-- The configuration that a text spells, if it has no fault. -/
def load (text : String) : Except ConfigError Config :=
  match decode? text with
  | none => .error .undecodable
  | some c =>
    match c.fault? with
    | some e => .error e
    | none => .ok c

end Config

end InteropWitness

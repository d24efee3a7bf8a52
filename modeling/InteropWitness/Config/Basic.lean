import InteropWitness.Override
import InteropWitness.Text.Quoted

namespace InteropWitness

/-- The configuration of an analysis. Overrides may have a placeholder for the library namespace. -/
structure Config where
  /-- The type of the streams that insertion operators take and return. -/
  streamType : TypeKey
  /-- Put in the place of the placeholder in overrides. -/
  libraryNamespace : String
  relationOverrides : List RelationOverride
  stringOverrides : List StringOverride
deriving DecidableEq

inductive ConfigError where
  /-- The text does not spell a configuration. -/
  | undecodable
  | blankStreamType
  | blankNamespace
  | blankTypeName
  | repeatedRelationOverride (typeName : String)
  | repeatedStringOverride (matcher : RecordMatcher)
deriving DecidableEq, Repr

/-- A matcher as messages show it. -/
def RecordMatcher.display : RecordMatcher → String
  | selfOrSubclass base => "SelfOrSubclass \x7b base: " ++ Text.Quoted.encode base ++ " \x7d"
  | handleOf template base =>
    "HandleOf \x7b template: " ++ Text.Quoted.encode template ++ ", base: " ++
      Text.Quoted.encode base ++ " \x7d"
  | exact typeName => "Exact \x7b type_name: " ++ Text.Quoted.encode typeName ++ " \x7d"

namespace ConfigError

/-- What is wrong, apart from the announcement that something is. -/
def reason : ConfigError → String
  | undecodable => "not a configuration"
  | blankStreamType => "stream_type must not be empty"
  | blankNamespace => "library_namespace must not be empty"
  | blankTypeName => "relation override with empty type_name"
  | repeatedRelationOverride typeName =>
    "relation override for '" ++ typeName ++ "' listed twice"
  | repeatedStringOverride matcher => "string override " ++ matcher.display ++ " listed twice"

def message (e : ConfigError) : String := "invalid analysis config: " ++ e.reason

end ConfigError

namespace Config

def default : Config where
  streamType := "std::ostream"
  libraryNamespace := "pxr"
  relationOverrides := RelationOverride.defaults
  stringOverrides := StringOverride.defaults

/-- The first fault among relation overrides, when `seen` have come before. -/
def relationFault? (seen : List (String × Option Relation)) :
    List RelationOverride → Option ConfigError
  | [] => none
  | o :: rest =>
    if Text.allBlank o.typeName then some .blankTypeName
    else if (o.typeName, o.relation) ∈ seen then some (.repeatedRelationOverride o.typeName)
    else relationFault? ((o.typeName, o.relation) :: seen) rest

/-- The first repetition among string overrides, when `seen` have come before. -/
def stringFault? (seen : List RecordMatcher) : List StringOverride → Option ConfigError
  | [] => none
  | o :: rest =>
    if o.matcher ∈ seen then some (.repeatedStringOverride o.matcher)
    else stringFault? (o.matcher :: seen) rest

/-- The first thing wrong with a configuration: a blank name, or an override listed twice. Overrides
are compared as they are written, with their placeholders. -/
def fault? (c : Config) : Option ConfigError :=
  if Text.allBlank c.streamType then some .blankStreamType
  else if Text.allBlank c.libraryNamespace then some .blankNamespace
  else (relationFault? [] c.relationOverrides).or (stringFault? [] c.stringOverrides)

/-- The relation overrides with the library namespace in them. -/
def relationTable (c : Config) : List RelationOverride :=
  c.relationOverrides.map (·.expand c.libraryNamespace)

/-- The string conversion overrides with the library namespace in them. -/
def stringTable (c : Config) : List StringOverride :=
  c.stringOverrides.map (·.expand c.libraryNamespace)

end Config

end InteropWitness

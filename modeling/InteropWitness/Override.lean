import InteropWitness.Pass.Basic
import InteropWitness.SourceUnit.Inheritance
import InteropWitness.Verdict

namespace InteropWitness

inductive RelationOverride.Action where
  /-- The operator exists but cannot be used for this type. -/
  | forceUnavailable
  /-- The witness is conformant but the consumer does not find it. -/
  | missedByConsumer
deriving DecidableEq, Repr

/-- A declaration for which the witness search is known to be wrong, possibly for one relation only.
-/
structure RelationOverride where
  typeName : String
  action : RelationOverride.Action
  /-- Both relations if there is none. -/
  relation : Option Relation
deriving DecidableEq, Repr

namespace RelationOverride

/-- Puts the library namespace in. -/
def expand (o : RelationOverride) (ns : String) : RelationOverride :=
  { o with typeName := Namespace.expand o.typeName ns }

/-- An expanded entry speaks of the declaration and the relation. -/
def covers (o : RelationOverride) (d : Decl) (relation : Relation) : Bool :=
  o.typeName = d.name && o.relation.all (· = relation)

/-- Some expanded entry prescribes the action. -/
def prescribes (table : List RelationOverride) (action : Action) (d : Decl)
    (relation : Relation) : Bool :=
  table.any fun o => o.action = action && o.covers d relation

end RelationOverride

/-- Which records an entry covers. -/
inductive RecordMatcher where
  /-- The record itself and what visibly inherits from it. -/
  | selfOrSubclass (base : String)
  /-- The specializations of a template whose only argument is the record or inherits from it. -/
  | handleOf (template base : String)
  /-- The declaration of that name. -/
  | exact (typeName : String)
deriving DecidableEq, Repr

/-- Records with a conversion of their own. -/
structure StringOverride where
  matcher : RecordMatcher
  verdict : StringVerdict
deriving DecidableEq, Repr

namespace RecordMatcher

/-- Puts the library namespace in. -/
def expand (m : RecordMatcher) (ns : String) : RecordMatcher :=
  match m with
  | selfOrSubclass base => selfOrSubclass (Namespace.expand base ns)
  | handleOf template base => handleOf (Namespace.expand template ns) (Namespace.expand base ns)
  | exact typeName => exact (Namespace.expand typeName ns)

/-- The declaration is the record named `base` or visibly inherits from it. -/
def inherits (u : SourceUnit) (d : Decl) (base : String) : Bool :=
  match u.named? base with
  | some b => b.record?.isSome && u.isDerived d.id b.id true
  | none => false

def covers (u : SourceUnit) (d : Decl) : RecordMatcher → Bool
  | selfOrSubclass base => inherits u d base
  | handleOf template base =>
    match d.specialization? with
    | some ⟨name, _, [arg]⟩ =>
      name = template && (u.recordOfType? arg).any fun (record, _) => inherits u record base
    | _ => false
  | exact typeName => d.name = typeName

end RecordMatcher

namespace StringOverride

def expand (o : StringOverride) (ns : String) : StringOverride :=
  { o with matcher := o.matcher.expand ns }

/-- The verdicts of all expanded entries that cover the declaration, in the order of the table; the
last of them counts. -/
def matching (table : List StringOverride) (u : SourceUnit) (d : Decl) :
    List StringVerdict :=
  (table.filter (·.matcher.covers u d)).map (·.verdict)

/-- The verdict of the last expanded entry with exactly the name of the declaration. -/
def exactVerdict? (table : List StringOverride) (d : Decl) : Option StringVerdict :=
  ((table.filter (·.matcher = .exact d.name)).map (·.verdict)).getLast?

end StringOverride

/-- The hash map compares its values deep inside its template, which fails for this one. The operand
type inherits an equality, but an incompatible one of its own wins overload resolution. -/
def RelationOverride.defaults : List RelationOverride :=
  [⟨"class {ns}::TfHashMap<const void *, struct {ns}::TfRefPtrTracker::Trace, class {ns}::TfHash>",
      .forceUnavailable, some .equality⟩,
    ⟨"class {ns}::VdfIndexedWeightsOperand", .forceUnavailable, none⟩,
    ⟨"class {ns}::HdPrimOriginSchema::OriginPath", .missedByConsumer, none⟩,
    ⟨"class {ns}::UsdNotice::ObjectsChanged::PathRange::iterator", .missedByConsumer, none⟩]

def StringOverride.defaults : List StringOverride :=
  [⟨.selfOrSubclass "class {ns}::UsdObject", .objectSubclass⟩,
    ⟨.selfOrSubclass "class {ns}::SdfSpec", .specSubclass⟩,
    ⟨.handleOf "{ns}::SdfHandle" "class {ns}::SdfSpec", .specHandle⟩,
    ⟨.exact "class std::map<class {ns}::TfToken, class {ns}::VtValue, struct {ns}::TfDictionaryLessThan>",
      .metadataMap⟩,
    ⟨.exact "class {ns}::UsdGeomXformOp", .transformOperation⟩]

end InteropWitness

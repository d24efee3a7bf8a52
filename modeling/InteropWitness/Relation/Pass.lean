import InteropWitness.Pass.Lifecycle
import InteropWitness.Relation.Search

namespace InteropWitness

structure RelationState where
  witnesses : WitnessSet
  store : Store RelationVerdict

namespace Relation

/-- The operands of a comparison: two parameters, or the object of a method and its one parameter.
-/
def operands? (f : FunctionDecl) : Option (QualType × QualType) :=
  match f.params, f.method with
  | [right], some m => some (if m.isConst then .constRef m.parent else .mutRef m.parent, right)
  | [left, right], _ => some (left, right)
  | _, _ => none

/-- The function is an operator of the relation that the consumer sees. -/
def isComparison (u : SourceUnit) (relation : Relation) (f : FunctionDecl) : Bool :=
  f.operator = some relation.operator && u.isBool f.returnType.ty && f.isVisible

/-- The types of the operands of a comparison that the consumer can call. -/
def witnessed? (ctx : Context) (relation : Relation) (f : FunctionDecl) :
    Option (TypeKey × TypeKey) :=
  if isComparison ctx.unit relation f then
    match operands? f with
    | none => none
    | some (left, right) =>
      match ctx.usableOperand? left, ctx.usableOperand? right with
      | some left, some right => some (left, right)
      | _, _ => none
  else none

def properties (f : FunctionDecl) : WitnessProperties :=
  ⟨f.isFriend, f.isMethod && f.isLateInline⟩

/-- The type and, for a specialization, the self type of its template: a witness for one
specialization serves the others. -/
def served (u : SourceUnit) (ty : TypeKey) : List TypeKey :=
  ty :: (u.injectedSelfType? ty).toList

/-- The pairs of types that a comparison is a witness for. -/
def servedPairs (u : SourceUnit) (left right : TypeKey) : List (TypeKey × TypeKey) :=
  (served u left).flatMap fun l => (served u right).map fun r => (l, r)

def visitFunction (ctx : Context) (relation : Relation) (f : FunctionDecl) (w : WitnessSet) :
    WitnessSet :=
  match witnessed? ctx relation f with
  | some (left, right) =>
    (servedPairs ctx.unit left right).foldl (fun w (l, r) => w.insert l r (properties f)) w
  | none => w

/-- Opens the entry of a record or enum, or settles it when its import class does. -/
def visitTag (ctx : Context) (d : Decl) (store : Store RelationVerdict) :
    Store RelationVerdict :=
  if d.inLibrary then
    match ctx.import? d.identity with
    | none => store
    | some i =>
      if !i.isImported then store.assign d.identity .blockedByImport
      else if i = .nonCopyable then store.assign d.identity .nonCopyable
      else if i.isReference then store.assign d.identity .importedAsReference
      else store.insertNew d.identity .unknown
  else store

def visit (ctx : Context) (relation : Relation) (d : Decl) (s : RelationState) : RelationState :=
  match d.kind with
  | .function f => { s with witnesses := visitFunction ctx relation f s.witnesses }
  | .record _ | .enumeration _ => { s with store := visitTag ctx d s.store }
  | .other => s

/-- Ordering is blocked where equality is not available. -/
def gate (ctx : Context) (relation : Relation) (entity : Identity) (v : RelationVerdict) :
    Except Violation RelationVerdict :=
  match relation with
  | .equality => .ok v
  | .ordering =>
    match ctx.equality with
    | .error e => .error e
    | .ok store =>
      .ok (if (store.get? entity).any (·.isAvailable) then v else .blockedByEquality)

/-- The verdict on a declaration with an open entry. -/
def judge (ctx : Context) (relation : Relation) (table : List RelationOverride) (w : WitnessSet)
    (entity : Identity) (d : Decl) : Except Violation RelationVerdict :=
  let forced := RelationOverride.prescribes table .forceUnavailable d relation
  let missed := RelationOverride.prescribes table .missedByConsumer d relation
  (gate ctx relation entity (if forced then .unavailable else ctx.unit.searchWitness w d)).map
    fun v => if v = .foundByConsumer && missed then .missedByConsumer else v

/-- Open entries are decided by a search for witnesses, then by the overrides. -/
def finalize (ctx : Context) (relation : Relation) (table : List RelationOverride)
    (entity : Identity) (s : RelationState) : Attempt RelationState :=
  match s.store.get? entity with
  | none => (s, some (.missingResult relation.pass entity.decl))
  | some v =>
    if v = .unknown then
      match (ctx.defining entity).bind (judge ctx relation table s.witnesses entity) with
      | .ok v => ({ s with store := s.store.assign entity v }, none)
      | .error violation => (s, some violation)
    else (s, none)

/-- Witnesses may be declared anywhere, so the whole unit is visited. -/
def analysis (relation : Relation) (config : Config) : Pass RelationState RelationVerdict where
  id := relation.pass
  scope := .wholeUnit
  initial := ⟨.empty, .empty⟩
  visit ctx d s := (visit ctx relation d s, none)
  finalize ctx := finalize ctx relation config.relationTable
  store := RelationState.store

end Relation

end InteropWitness

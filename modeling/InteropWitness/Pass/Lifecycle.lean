import InteropWitness.Config.Basic

namespace InteropWitness

/-- Results of the passes that come before the witness passes. -/
structure Inputs where
  imports : Store ImportClass
  /-- The cases of every enum that was found. -/
  enums : Store EnumCases

/-- What a pass may read besides its own results. -/
structure Context where
  pass : PassId
  unit : SourceUnit
  config : Config
  inputs : Inputs
  frozenEquality : Option (Store RelationVerdict)

namespace Context

variable (ctx : Context)

def import? (entity : Identity) : Option ImportClass := ctx.inputs.imports.get? entity

/-- The frozen results of the equality pass. -/
def equality : Except Violation (Store RelationVerdict) :=
  match ctx.frozenEquality with
  | some store => .ok store
  | none => .error (.missingDependency ctx.pass .equality)

/-- The declaration behind an entry of a store. -/
def defining (entity : Identity) : Except Violation Decl :=
  match ctx.unit.defining? entity with
  | some d => .ok d
  | none => .error (.missingResult ctx.pass entity.decl)

end Context

/-- The type that an operand contributes. -/
def SourceUnit.operandType? (u : SourceUnit) (operand : QualType) : Option TypeKey :=
  if u.isBuiltin operand.ty then some operand.ty else operand.constReferent?

/-- The consumer can pass a value of the type to an operator. -/
def Context.isUsable (ctx : Context) (ty : TypeKey) : Bool :=
  match ctx.unit.tagDecl? ty with
  | none => true
  | some d => !ctx.unit.involvesLibrary d || (ctx.import? d.identity).any (·.isCopyable)

/-- The type of an operand that can be used. -/
def Context.usableOperand? (ctx : Context) (operand : QualType) : Option TypeKey :=
  (ctx.unit.operandType? operand).filter ctx.isUsable

/-- The state after a step, and the violation that the step ended in. -/
abbrev Attempt (σ : Type) := σ × Option Violation

/-- Which declarations a pass visits. -/
inductive Scope where
  | library
  | wholeUnit
deriving DecidableEq, Repr

/-- A pass with states `σ` and results `ρ`. It visits every declaration in its scope once and only
collects evidence; then it finalizes every entry of its store once; then its store is frozen. -/
structure Pass (σ ρ : Type) where
  id : PassId
  scope : Scope
  initial : σ
  visit : Context → Decl → σ → Attempt σ
  finalize : Context → Identity → σ → Attempt σ
  store : σ → Store ρ

/-- Takes the steps for the items in turn, up to the first that fails. -/
def Attempt.each {α σ : Type} (step : α → σ → Attempt σ) : List α → σ → Attempt σ
  | [], s => (s, none)
  | a :: rest, s =>
    match step a s with
    | (s, none) => each step rest s
    | (s, some v) => (s, some v)

/-- How far a pass has come. -/
structure Progress (σ : Type) where
  phase : Phase
  state : σ

namespace Pass

variable {σ ρ : Type} (p : Pass σ ρ)

def start : Progress σ := ⟨.unvisited, p.initial⟩

/-- The declarations that the pass visits. -/
def visited (u : SourceUnit) : List Decl :=
  match p.scope with
  | .wholeUnit => u.decls
  | .library => u.decls.filter u.isFromLibrary

def refuse (operation : Operation) (g : Progress σ) : Violation :=
  .wrongPhase p.id operation g.phase

/-- Visits up to the first failure. Out of its phase it is refused and changes nothing. -/
def visitAll (ctx : Context) (g : Progress σ) : Attempt (Progress σ) :=
  if g.phase = .unvisited then
    let (state, violation) := Attempt.each (p.visit ctx) (p.visited ctx.unit) g.state
    (⟨.visiting, state⟩, violation)
  else (g, some (p.refuse .visit g))

/-- The first entry without a decided result. -/
def undecided? [Verdict ρ] (ctx : Context) (state : σ) : Option Violation :=
  ((p.store state).entries.find? fun e => Verdict.isUnknown e.2).map fun e =>
    .unresolved p.id e.1.decl (((ctx.unit.defining? e.1).map (·.name)).getD "")

def finalizeAll [Verdict ρ] (ctx : Context) (g : Progress σ) : Attempt (Progress σ) :=
  if g.phase = .visiting then
    match Attempt.each (p.finalize ctx) (p.store g.state).keys g.state with
    | (state, some v) => (⟨.finalizing, state⟩, some v)
    | (state, none) => (⟨.finalizing, state⟩, p.undecided? ctx state)
  else (g, some (p.refuse .finalize g))

def freeze (g : Progress σ) : Except Violation (Store ρ) :=
  if g.phase = .finalizing then .ok (p.store g.state) else .error (p.refuse .freeze g)

/-- The whole life of a pass. -/
def run [Verdict ρ] (ctx : Context) : Except Violation (Store ρ) :=
  match p.visitAll ctx p.start with
  | (_, some v) => .error v
  | (g, none) =>
    match p.finalizeAll ctx g with
    | (_, some v) => .error v
    | (g, none) => p.freeze g

end Pass

end InteropWitness

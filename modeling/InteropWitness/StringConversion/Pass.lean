import InteropWitness.Pass.Lifecycle

namespace InteropWitness

structure StringState where
  /-- The types that stream insertions accept, in the order in which they were met. -/
  candidates : List TypeKey
  store : Store StringVerdict

namespace StringConversion

/-- The type is a stream that is passed along by reference. -/
def isStream (config : Config) (q : QualType) : Bool :=
  q.reference = .lvalue && !q.isConst && q.ty = config.streamType

/-- The type of the value that a stream insertion accepts, if the consumer can call it. -/
def accepted? (ctx : Context) (f : FunctionDecl) : Option TypeKey :=
  if f.operator = some .insertion && f.isVisible then
    match f.params with
    | [stream, value] =>
      if isStream ctx.config stream && isStream ctx.config f.returnType then
        ctx.usableOperand? value
      else none
    | _ => none
  else none

def visitFunction (ctx : Context) (f : FunctionDecl) (candidates : List TypeKey) :
    List TypeKey :=
  match accepted? ctx f with
  | some ty => if ty ∈ candidates then candidates else candidates ++ [ty]
  | none => candidates

/-- An enum that was found, and can be copied, is described by its cases. -/
def visitEnum (ctx : Context) (d : Decl) (store : Store StringVerdict) : Store StringVerdict :=
  if ctx.inputs.enums.contains d.identity && (ctx.import? d.identity).any (·.isCopyable) then
    store.insertNew d.identity .enumCases
  else store

/-- Opens the entry of a library record, or settles it when its import class or an override does.
A foreign record has an entry only if an override names it exactly. -/
def visitRecord (ctx : Context) (table : List StringOverride) (d : Decl)
    (store : Store StringVerdict) : Store StringVerdict :=
  if d.inLibrary then
    match ctx.import? d.identity with
    | none => store
    | some i =>
      if !i.isImported then store.assign d.identity .blockedByImport
      else if i = .nonCopyable then store.assign d.identity .nonCopyable
      else
        (StringOverride.matching table ctx.unit d).foldl (fun store v => store.assign d.identity v)
          (store.insertNew d.identity .unknown)
  else
    match StringOverride.exactVerdict? table d with
    | some v => store.insertNew d.identity v
    | none => store

def visit (ctx : Context) (table : List StringOverride) (d : Decl) (s : StringState) :
    StringState :=
  match d.kind with
  | .function f => { s with candidates := visitFunction ctx f s.candidates }
  | .enumeration _ => { s with store := visitEnum ctx d s.store }
  | .record _ => { s with store := visitRecord ctx table d s.store }
  | .other => s

/-- The verdict on a declaration with an open entry. Streams accept all builtin numbers. -/
def judge (u : SourceUnit) (candidates : List TypeKey) (d : Decl) : StringVerdict :=
  if (u.conversionClosure .selfTypeLast d).any fun ty => ty ∈ candidates || u.isArithmetic ty then
    .streamed
  else .noCandidate

/-- Looks for a type with a stream insertion among those that an open record converts to. -/
def finalize (ctx : Context) (entity : Identity) (s : StringState) : Attempt StringState :=
  match s.store.get? entity with
  | none => (s, some (.missingResult .stringConversion entity.decl))
  | some v =>
    if v = .unknown then
      match ctx.defining entity with
      | .ok d => ({ s with store := s.store.assign entity (judge ctx.unit s.candidates d) }, none)
      | .error violation => (s, some violation)
    else (s, none)

/-- Stream insertions may be declared anywhere, so the whole unit is visited. -/
def analysis (config : Config) : Pass StringState StringVerdict where
  id := .stringConversion
  scope := .wholeUnit
  initial := ⟨[], .empty⟩
  visit ctx d s := (visit ctx config.stringTable d s, none)
  finalize := finalize
  store := StringState.store

end StringConversion

end InteropWitness

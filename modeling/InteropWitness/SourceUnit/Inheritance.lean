import InteropWitness.SourceUnit.Basic

namespace InteropWitness

variable {α : Type} [DecidableEq α]

/-- The nodes among `fresh` that can be reached from the queue, in the order in which they are met:
nodes waiting longer come first. Entering a node takes it off `fresh`, so a search ends on every
graph, cycles included. -/
def breadthFirst (next : α → List α) : List α → List α → List α
  | [], _ => []
  | x :: queue, fresh =>
    if x ∈ fresh then x :: breadthFirst next (queue ++ next x) (fresh.erase x)
    else breadthFirst next queue fresh
termination_by queue fresh => (fresh.length, queue.length)
decreasing_by
  · have := List.length_erase_of_mem ‹x ∈ fresh›
    have := List.length_pos_of_mem ‹x ∈ fresh›
    grind
  · grind

/-- A node that is sought can be reached from the stack through nodes among `fresh`. -/
def reaches (sought : α → Bool) (next : α → List α) : List α → List α → Bool
  | [], _ => false
  | x :: stack, fresh =>
    if x ∈ fresh then sought x || reaches sought next (next x ++ stack) (fresh.erase x)
    else reaches sought next stack fresh
termination_by stack fresh => (fresh.length, stack.length)
decreasing_by
  · have := List.length_erase_of_mem ‹x ∈ fresh›
    have := List.length_pos_of_mem ‹x ∈ fresh›
    grind
  · grind

end InteropWitness

namespace InteropWitness.SourceUnit

variable (u : SourceUnit)

/-- The records that are bases of the record `id`, possibly without those hidden from the consumer.
-/
def baseRecords (visibleOnly : Bool) (id : DeclId) : List DeclId :=
  match u.definingRecord? id with
  | none => []
  | some (_, r) =>
    (r.bases.filter fun b => !visibleOnly || b.access.isVisible).filterMap fun b =>
      (u.recordOfType? b.ty).map (·.1.id)

/-- The record itself and every record that the consumer sees it inherit from, nearest first, each
at its first place. -/
def visibleSupertypes (id : DeclId) : List DeclId :=
  match u.definingRecord? id with
  | none => []
  | some (d, _) => breadthFirst (u.baseRecords true) [d.id] u.ids

/-- `derived` is the same entity as `base` or inherits from it. -/
def isDerived (derived base : DeclId) (visibleOnly : Bool) : Bool :=
  match u.identity? derived, u.identity? base with
  | some d, some b => reaches (· = b.decl) (u.baseRecords visibleOnly) [d.decl] u.ids
  | _, _ => false

/-- The arguments of the specialization that a type is. -/
def templateArguments (ty : TypeKey) : List TypeKey :=
  match (u.tagDecl? ty).bind (·.specialization?) with
  | some s => s.args
  | none => []

/-- The type is declared inside the library. -/
def isLibraryType (ty : TypeKey) : Bool := (u.tagDecl? ty).any (·.inLibrary)

/-- The declaration is in the library, or its type or any template argument in it is: a container of
library types is not foreign. -/
def involvesLibrary (d : Decl) : Bool :=
  d.inLibrary || d.tagType?.any fun ty =>
    reaches u.isLibraryType u.templateArguments [ty] u.types.keys

/-- A traversal of the library comes by the declaration. -/
def isFromLibrary (d : Decl) : Bool :=
  if d.tagType?.isSome then u.involvesLibrary d else d.inLibrary

end InteropWitness.SourceUnit

namespace InteropWitness

inductive ClosureOrder where
  | selfTypeBeforeConversions
  | selfTypeLast
deriving DecidableEq, Repr

/-- The targets of the conversions that the consumer applies on its own. -/
def RecordDecl.appliedConversions (r : RecordDecl) : List TypeKey :=
  (r.conversions.filter (·.isApplied)).map (·.target.ty)

namespace SourceUnit

variable (u : SourceUnit)

/-- The types of the visible supertypes of a record. -/
def supertypeKeys (id : DeclId) : List TypeKey :=
  (u.visibleSupertypes id).filterMap fun id => (u.decl? id).bind (·.tagType?)

/-- The types that the consumer converts a record or enum to on its own, the more trustworthy ones
first: its visible supertypes, then its template self type and the targets of its conversion
operators in either order. Each type is listed once, at its first place. -/
def conversionClosure (order : ClosureOrder) (d : Decl) : List TypeKey :=
  match d.kind with
  | .record r =>
    let selfType := (r.specialization.map (·.selfType)).toList
    let beyond := match order with
      | .selfTypeBeforeConversions => selfType ++ r.appliedConversions
      | .selfTypeLast => r.appliedConversions ++ selfType
    (u.supertypeKeys d.id ++ beyond).eraseDups
  | .enumeration e => [e.ty]
  | .function _ | .other => []

end SourceUnit

end InteropWitness

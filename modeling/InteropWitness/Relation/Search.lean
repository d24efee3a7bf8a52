import InteropWitness.SourceUnit.Inheritance
import InteropWitness.Verdict

namespace InteropWitness

/-- How a witness is declared. -/
structure WitnessProperties where
  isFriend : Bool
  isLateInline : Bool
deriving DecidableEq, Repr

namespace WitnessProperties

/-- Friends are the weakest, then late inline methods, then direct witnesses. -/
def weight : WitnessProperties → Nat
  | ⟨true, false⟩ => 0
  | ⟨true, true⟩ => 1
  | ⟨false, true⟩ => 2
  | ⟨false, false⟩ => 3

def order (p q : WitnessProperties) : Ordering := compare p.weight q.weight

end WitnessProperties

/-- Witnesses by the pair of types that they take, whichever of these is on which side. Of several
witnesses of a pair the set keeps the most direct one. -/
abbrev WitnessSet := OrderedMap (TypeKey × TypeKey) WitnessProperties

namespace WitnessSet

/-- Two types in the order in which a set stores them. -/
def pair (a b : TypeKey) : TypeKey × TypeKey := if b < a then (b, a) else (a, b)

def find? (w : WitnessSet) (a b : TypeKey) : Option WitnessProperties := w.get? (pair a b)

def insert (w : WitnessSet) (a b : TypeKey) (p : WitnessProperties) : WitnessSet :=
  match w.find? a b with
  | some q => if q.weight < p.weight then w.assign (pair a b) p else w
  | none => w.assign (pair a b) p

end WitnessSet

/-- All pairs of an element with itself or a later one. -/
def pairs {α : Type} : List α → List (α × α)
  | [] => []
  | x :: rest => (x :: rest).map (x, ·) ++ pairs rest

/-- What a witness over `first` and `second` is worth for a declaration of the type `this`. Members
of a specialization are not found, so a witness over its own type is worth no more than being one.
-/
def witnessProposals (this : TypeKey) (isSpecialization : Bool) (p : WitnessProperties)
    (first second : TypeKey) : List RelationVerdict :=
  let shared := if isSpecialization then [.templateSpecialization] else []
  if first ≠ this ∨ second ≠ this then shared ++ [.differentTypes first second]
  else if p.isFriend then shared ++ [.friendFunction]
  else if isSpecialization then shared
  else if p.isLateInline then [.lateInlineMethod]
  else [.foundByConsumer]

namespace SourceUnit

variable (u : SourceUnit)

/-- The proposals of one pair. A conversion to bool tells whether there is a value, not which, so it
counts for nothing. Comparing builtin numbers takes no witness. -/
def pairProposals (w : WitnessSet) (this : TypeKey) (isSpecialization : Bool)
    (pair : TypeKey × TypeKey) : List RelationVerdict :=
  let (first, second) := pair
  if u.isBool first || u.isBool second then []
  else
    (match w.find? first second with
      | some p => witnessProposals this isSpecialization p first second
      | none => []) ++
    if u.isArithmetic first && u.isArithmetic second then [.differentTypes first second] else []

/-- All proposals for a declaration, those of the least trustworthy conversions first. -/
def proposals (w : WitnessSet) (d : Decl) : List RelationVerdict :=
  match d.tagType? with
  | none => []
  | some this =>
    (pairs (u.conversionClosure .selfTypeBeforeConversions d).reverse).flatMap
      (u.pairProposals w this d.specialization?.isSome)

end SourceUnit

namespace RelationVerdict

/-- Takes a proposal only for its higher rank. -/
def upgrade (current proposal : RelationVerdict) : RelationVerdict :=
  if current.level < proposal.level then proposal else current

/-- The first proposal of the highest rank, or `unavailable` if there is none. -/
def best (proposals : List RelationVerdict) : RelationVerdict :=
  let found := proposals.foldl upgrade .unknown
  if found = .unknown then .unavailable else found

end RelationVerdict

/-- The verdict of the witnesses on a declaration. -/
def SourceUnit.searchWitness (u : SourceUnit) (w : WitnessSet) (d : Decl) :
    RelationVerdict :=
  .best (u.proposals w d)

end InteropWitness

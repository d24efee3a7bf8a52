import InteropWitness.Proofs.Witness
import InteropWitness.Relation.Pass

namespace InteropWitness.Relation

/-- The operands of a function: its two parameters, or the object of a method and its one parameter.
-/
def TakesOperands (f : FunctionDecl) (left right : QualType) : Prop :=
  f.params = [left, right] ∨
    ∃ m, f.method = some m ∧ f.params = [right] ∧ left = ⟨m.parent, m.isConst, .lvalue⟩

/-- The consumer can call the function to compare values of the types `left` and `right`. -/
structure Compares (ctx : Context) (relation : Relation) (f : FunctionDecl)
    (left right : TypeKey) : Prop where
  operator : f.operator = some relation.operator
  returnsBool : ctx.unit.isBool f.returnType.ty = true
  present : f.isDeleted = false
  accessible : f.access.isVisible = true
  operands : ∃ l r, TakesOperands f l r ∧ ctx.unit.operandType? l = some left ∧
    ctx.unit.operandType? r = some right
  usable : ctx.isUsable left = true ∧ ctx.isUsable right = true

/-- A witness over `ty` is one over `other` too: they are the same type, or `other` is the self type
of the template that `ty` is a specialization of. -/
def Serves (u : SourceUnit) (ty other : TypeKey) : Prop :=
  other = ty ∨ u.injectedSelfType? ty = some other

theorem operands?_eq_some_iff {f : FunctionDecl} {left right : QualType} :
    operands? f = some (left, right) ↔ TakesOperands f left right := by
  unfold operands? TakesOperands
  split
  · next r m hp hm =>
    rw [hp, hm]
    cases hc : m.isConst
    · simp [QualType.mutRef, hc, eq_comm, and_comm]
    · simp [QualType.constRef, hc, eq_comm, and_comm]
  · next l r hp =>
    simp [hp, eq_comm]
  · next hfree hmethod =>
    simp only [reduceCtorEq, false_iff, not_or]
    refine ⟨hfree left right, fun h => ?_⟩
    obtain ⟨m, hm, hp, _⟩ := h
    exact hmethod right m hp hm

theorem usableOperand?_eq_some_iff {ctx : Context} {q : QualType} {ty : TypeKey} :
    ctx.usableOperand? q = some ty ↔
      ctx.unit.operandType? q = some ty ∧ ctx.isUsable ty = true := by
  rw [Context.usableOperand?, Option.filter_eq_some_iff]

theorem witnessed?_eq_some_iff {ctx : Context} {relation : Relation} {f : FunctionDecl}
    {left right : TypeKey} :
    witnessed? ctx relation f = some (left, right) ↔ Compares ctx relation f left right := by
  have hcompares : isComparison ctx.unit relation f = true ↔ f.operator = some relation.operator ∧
      ctx.unit.isBool f.returnType.ty = true ∧ f.isDeleted = false ∧ f.access.isVisible = true := by
    simp [isComparison, FunctionDecl.isVisible, and_assoc]
  unfold witnessed?
  constructor
  · intro h
    split at h
    · next hc =>
      obtain ⟨hop, hbool, hpresent, haccess⟩ := hcompares.1 hc
      split at h
      · cases h
      · next l r hlr =>
        split at h
        · next hl hr =>
          cases h
          obtain ⟨hl, hul⟩ := usableOperand?_eq_some_iff.1 hl
          obtain ⟨hr, hur⟩ := usableOperand?_eq_some_iff.1 hr
          exact ⟨hop, hbool, hpresent, haccess, ⟨l, r, operands?_eq_some_iff.1 hlr, hl, hr⟩,
            hul, hur⟩
        · cases h
    · cases h
  · intro h
    obtain ⟨l, r, hlr, hl, hr⟩ := h.operands
    have hul := usableOperand?_eq_some_iff.2 ⟨hl, h.usable.1⟩
    have hur := usableOperand?_eq_some_iff.2 ⟨hr, h.usable.2⟩
    rw [if_pos (hcompares.2 ⟨h.operator, h.returnsBool, h.present, h.accessible⟩),
      operands?_eq_some_iff.2 hlr]
    simp only [hul, hur]

theorem mem_served_iff {u : SourceUnit} {ty other : TypeKey} :
    other ∈ served u ty ↔ Serves u ty other := by
  simp [served, Serves]

def contributions (ctx : Context) (relation : Relation) (f : FunctionDecl) :
    List (TypeKey × TypeKey × WitnessProperties) :=
  match witnessed? ctx relation f with
  | none => []
  | some (left, right) =>
    (servedPairs ctx.unit left right).map fun pair => (pair.1, pair.2, properties f)

/-- The witnesses that a whole traversal comes by, in its order. -/
def witnesses (ctx : Context) (relation : Relation) :
    List (TypeKey × TypeKey × WitnessProperties) :=
  (ctx.unit.decls.filterMap (·.function?)).flatMap (contributions ctx relation)

theorem visitFunction_eq_foldl (ctx : Context) (relation : Relation) (f : FunctionDecl)
    (w : WitnessSet) :
    visitFunction ctx relation f w =
      (contributions ctx relation f).foldl (fun w e => w.insert e.1 e.2.1 e.2.2) w := by
  unfold visitFunction contributions
  cases witnessed? ctx relation f with
  | none => rfl
  | some pair => simp [List.foldl_map]

theorem mem_contributions_iff {ctx : Context} {relation : Relation} {f : FunctionDecl}
    {a b : TypeKey} {p : WitnessProperties} :
    (a, b, p) ∈ contributions ctx relation f ↔ p = properties f ∧
      ∃ left right, Compares ctx relation f left right ∧ Serves ctx.unit left a ∧
        Serves ctx.unit right b := by
  unfold contributions
  cases hw : witnessed? ctx relation f with
  | none =>
    simp only [List.not_mem_nil, false_iff]
    intro h
    obtain ⟨_, left, right, hc, _⟩ := h
    rw [witnessed?_eq_some_iff.2 hc] at hw
    cases hw
  | some pair =>
    obtain ⟨left, right⟩ := pair
    have hc : Compares ctx relation f left right := witnessed?_eq_some_iff.1 hw
    simp only [servedPairs, List.mem_map, List.mem_flatMap, mem_served_iff]
    constructor
    · intro h
      obtain ⟨_, ⟨l, hl, r, hr, rfl⟩, he⟩ := h
      cases he
      exact ⟨rfl, left, right, hc, hl, hr⟩
    · intro h
      obtain ⟨rfl, left', right', hc', ha, hb⟩ := h
      rw [witnessed?_eq_some_iff.2 hc'] at hw
      cases hw
      exact ⟨(a, b), ⟨a, ha, b, hb, rfl⟩, rfl⟩

theorem recorded_contributions_iff {ctx : Context} {relation : Relation} {f : FunctionDecl}
    {a b : TypeKey} {p : WitnessProperties} :
    WitnessSet.Recorded (contributions ctx relation f) a b p ↔ p = properties f ∧
      ∃ left right, Compares ctx relation f left right ∧ ∃ l r, Serves ctx.unit left l ∧
        Serves ctx.unit right r ∧ s(a, b) = s(l, r) := by
  constructor
  · rintro ⟨⟨l, r, _⟩, he, hs, rfl⟩
    obtain ⟨hp, left, right, hc, hl, hr⟩ := mem_contributions_iff.1 he
    exact ⟨hp, left, right, hc, l, r, hl, hr, hs⟩
  · rintro ⟨hp, left, right, hc, l, r, hl, hr, hs⟩
    exact ⟨(l, r, p), mem_contributions_iff.2 ⟨hp, left, right, hc, hl, hr⟩, hs, rfl⟩

/-- A function declared in the unit compares the unordered pair of types, directly or through the
self types of templates. -/
def HasWitness (ctx : Context) (relation : Relation) (first second : TypeKey) : Prop :=
  ∃ d ∈ ctx.unit.decls, ∃ f, d.kind = .function f ∧ ∃ left right,
    Compares ctx relation f left right ∧ ∃ l r, Serves ctx.unit left l ∧ Serves ctx.unit right r ∧
      s(first, second) = s(l, r)

theorem mem_functions_iff {u : SourceUnit} {f : FunctionDecl} :
    f ∈ u.decls.filterMap (·.function?) ↔ ∃ d ∈ u.decls, d.kind = .function f := by
  rw [List.mem_filterMap]
  constructor
  · intro h
    obtain ⟨d, hd, hf⟩ := h
    refine ⟨d, hd, ?_⟩
    unfold Decl.function? at hf
    split at hf
    · next g hg =>
      cases hf
      exact hg
    · cases hf
  · intro h
    obtain ⟨d, hd, hf⟩ := h
    exact ⟨d, hd, by simp [Decl.function?, hf]⟩

theorem isSome_find?_witnesses {ctx : Context} {relation : Relation} {first second : TypeKey} :
    ((WitnessSet.ofList (witnesses ctx relation)).find? first second).isSome ↔
      HasWitness ctx relation first second := by
  rw [WitnessSet.isSome_find?_ofList]
  constructor
  · intro h
    obtain ⟨⟨l, r, p⟩, he, hs⟩ := h
    obtain ⟨f, hf, hmem⟩ := List.mem_flatMap.1 he
    obtain ⟨d, hd, hkind⟩ := mem_functions_iff.1 hf
    obtain ⟨_, left, right, hc, hl, hr⟩ := mem_contributions_iff.1 hmem
    exact ⟨d, hd, f, hkind, left, right, hc, l, r, hl, hr, hs⟩
  · intro h
    obtain ⟨d, hd, f, hkind, left, right, hc, l, r, hl, hr, hs⟩ := h
    have hf := mem_functions_iff.2 ⟨d, hd, hkind⟩
    have hmem := mem_contributions_iff.2 ⟨rfl, left, right, hc, hl, hr⟩
    exact ⟨(l, r, properties f), List.mem_flatMap.2 ⟨f, hf, hmem⟩, hs⟩

end InteropWitness.Relation

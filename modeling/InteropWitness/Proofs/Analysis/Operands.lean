import InteropWitness.Proofs.Analysis.View

namespace InteropWitness

/-- The operands that a function declares for its operator: all parameters of a comparison and the
object that it is a method of, and what a stream insertion inserts. -/
inductive FunctionDecl.DeclaresOperand (f : FunctionDecl) : QualType → Prop
  | parameter {q : QualType} (hop : f.operator = some .equal ∨ f.operator = some .less)
      (hq : q ∈ f.params) : DeclaresOperand f q
  | object {m : MethodInfo} (hop : f.operator = some .equal ∨ f.operator = some .less)
      (hm : f.method = some m) (hone : f.params.length = 1) :
      DeclaresOperand f ⟨m.parent, m.isConst, .lvalue⟩
  | inserted {q : QualType} (hop : f.operator = some .insertion) (hq : f.params[1]? = some q) :
      DeclaresOperand f q

theorem SourceUnit.operandType?_eq_none {u : SourceUnit} {q : QualType}
    (hbuiltin : u.isBuiltin q.ty = false) (hshape : q.isConst = false ∨ q.reference = .byValue) :
    u.operandType? q = none := by
  rw [operandType?, hbuiltin, if_neg Bool.false_ne_true, QualType.constReferent?,
    QualType.isReference]
  rcases hshape with h | h
  · simp [h]
  · simp [h]

namespace FunctionDecl

variable {f : FunctionDecl} {ctx : Context}

theorem idle_of_not
    (hcompares : ∀ relation left right, ¬Relation.Compares ctx relation f left right)
    (hinserts : ∀ ty, ¬StringConversion.Inserts ctx f ty) : f.Idle ctx where
  witnesses relation := by
    refine List.eq_nil_iff_forall_not_mem.2 fun e he => ?_
    obtain ⟨_, left, right, h, _⟩ := Relation.mem_contributions_iff.1 he
    exact hcompares relation left right h
  accepted := Option.eq_none_iff_forall_ne_some.2 fun ty hty =>
    hinserts ty (StringConversion.accepted?_eq_some_iff.1 hty)

theorem idle_of_operator (hop : f.operator = none) : f.Idle ctx := by
  refine idle_of_not (fun relation left right h => ?_) fun ty h => ?_
  · have hop' := h.operator
    rw [hop] at hop'
    cases hop'
  · have hop' := h.operator
    rw [hop] at hop'
    cases hop'

theorem idle_of_operand {q : QualType} (hq : f.DeclaresOperand q)
    (hrefused : ctx.unit.operandType? q = none) : f.Idle ctx := by
  have hne : ∀ {r ty}, ctx.unit.operandType? r = some ty → q ≠ r := by
    rintro _ _ hr rfl
    rw [hrefused] at hr
    cases hr
  refine idle_of_not (fun relation left right h => ?_) fun ty h => ?_
  · obtain ⟨l, r, htakes, hl, hr⟩ := h.operands
    cases hq with
    | parameter _ hq =>
      rcases htakes with hparams | ⟨m, hm, hparams, _⟩
      · simp [hparams, hne hl, hne hr] at hq
      · simp [hparams, hne hr] at hq
    | object _ hm hone =>
      rcases htakes with hparams | ⟨m, hm', _, hobject⟩
      · simp [hparams] at hone
      · cases hm.symm.trans hm'
        exact hne hl hobject.symm
    | inserted hop => cases relation <;> simp [h.operator, Relation.operator] at hop
  · obtain ⟨value, hparams, hvalue⟩ := h.operands
    cases hq with
    | parameter hop => simp [h.operator] at hop
    | object hop => simp [h.operator] at hop
    | inserted _ hq =>
      rw [hparams] at hq
      cases hq
      exact hne hvalue rfl

end FunctionDecl

/-- The view in which one function has no operator. -/
def View.muting (id : DeclId) : View :=
  .editing (fun id' f => if id' = id then { f with operator := none } else f) fun id' f => by
    split
    · exact ⟨List.Subset.refl _, rfl, rfl⟩
    · exact ⟨List.Subset.refl _, rfl, rfl⟩

theorem View.function_muting (id id' : DeclId) (f : FunctionDecl) :
    (muting id).function id' f = some (if id' = id then { f with operator := none } else f) := rfl

theorem SourceUnit.map_muting {u : SourceUnit} {d : Decl} {f : FunctionDecl} (hd : d ∈ u.decls)
    (hf : d.kind = .function f) :
    u.decls.map (View.muting d.id).decl =
      u.decls.set d.id.index { d with kind := .function { f with operator := none } } := by
  have hget : u.decls[d.id.index]? = some d := decl?_id hd
  have hmuted : (View.muting d.id).decl d =
      { d with kind := .function { f with operator := none } } := by
    simp [View.decl, View.kind, hf, View.function_muting]
  refine List.ext_getElem? fun i => ?_
  rw [List.getElem?_map]
  by_cases hi : i = d.id.index
  · rw [hi, hget, List.getElem?_set_self (List.getElem?_eq_some_iff.1 hget).1, Option.map_some,
      hmuted]
  · rw [List.getElem?_set_ne (Ne.symm hi)]
    cases he : u.decls[i]? with
    | none => rfl
    | some e =>
      have hne : e.id ≠ d.id := fun h => hi (by rw [← h, u.wellFormed.dense i e he])
      obtain ⟨id, name, definition, inLibrary, kind⟩ := e
      cases kind with
      | function g => simp [View.decl, View.kind, View.function_muting, if_neg hne]
      | record | enumeration | other => rfl

namespace Analysis

/-- A function that declares an operand which is neither of a builtin type nor a constant reference:
the unit in which it has no operator is accepted, and the results are the same. -/
theorem run_of_muted (a : Analysis) {d : Decl} {f : FunctionDecl} {q : QualType}
    (hd : d ∈ a.unit.decls) (hf : d.kind = .function f) (hq : f.DeclaresOperand q)
    (hbuiltin : a.unit.isBuiltin q.ty = false)
    (hshape : q.isConst = false ∨ q.reference = .byValue) :
    ∃ v : SourceUnit, v.types = a.unit.types ∧
      v.decls =
        a.unit.decls.set d.id.index { d with kind := .function { f with operator := none } } ∧
      ∃ r, a.run = .ok r ∧ ({ a with unit := v } : Analysis).run = .ok r := by
  let muted := a.viewed (View.muting d.id) fun _ => rfl
  have hrun : muted.run = a.run := by
    refine a.run_viewed_of_idle _ fun e he g hg => ?_
    by_cases hid : e.id = d.id
    · have hsame : e = d :=
        Option.some.inj (by rw [← SourceUnit.decl?_id he, hid, SourceUnit.decl?_id hd])
      have hgf : g = f := by
        rw [hsame, Decl.function?, hf] at hg
        exact (Option.some.inj hg).symm
      rw [hgf]
      refine .inr ⟨FunctionDecl.idle_of_operand hq ?_, fun g' hg' => ?_⟩
      · exact SourceUnit.operandType?_eq_none hbuiltin hshape
      · rw [View.function_muting, if_pos hid] at hg'
        cases hg'
        exact FunctionDecl.idle_of_operator rfl
    · exact .inl (by rw [View.function_muting, if_neg hid])
  refine ⟨muted.unit, rfl, SourceUnit.map_muting hd hf, ?_⟩
  exact ⟨a.results, a.run_eq_results, hrun.trans a.run_eq_results⟩

/-- An equality of an enum with two operands of one shape. -/
def flagEquality (isConst : Bool) (reference : Reference) : FunctionDecl :=
  ⟨some .equal, [⟨"Flag", isConst, reference⟩, ⟨"Flag", isConst, reference⟩], .value "bool", none,
    .unspecified, false, false, false⟩

def passedFlags (isConst : Bool) (reference : Reference) : Analysis where
  unit :=
    { decls :=
        [⟨⟨0⟩, "Flag", none, true, .enumeration ⟨"Flag", true⟩⟩,
          ⟨⟨1⟩, "operator==", none, true, .function (flagEquality isConst reference)⟩]
      types := OrderedMap.ofList [("bool", .builtin .bool), ("Flag", .enumeration ⟨0⟩ true)]
      wellFormed := by
        apply WellFormed.fault?_eq_none_iff.1
        cases isConst <;> cases reference <;> decide }
  inputs := ⟨.ofList [(⟨⟨0⟩⟩, .value)], .empty⟩
  config := .default

/-- Mutable references to the enum are passed on by nobody. -/
theorem run_of_mutableFlags :
    (flagEquality false .lvalue).DeclaresOperand ⟨"Flag", false, .lvalue⟩ ∧
      (passedFlags false .lvalue).unit.isBuiltin "Flag" = false ∧
      ∃ v : SourceUnit, v.decls[1]? = some ⟨⟨1⟩, "operator==", none, true,
          .function { flagEquality false .lvalue with operator := none }⟩ ∧
        ∃ r, (passedFlags false .lvalue).run = .ok r ∧
          ({ passedFlags false .lvalue with unit := v } : Analysis).run = .ok r := by
  have hoperand : (flagEquality false .lvalue).DeclaresOperand ⟨"Flag", false, .lvalue⟩ :=
    .parameter (.inl rfl) List.mem_cons_self
  have hbuiltin : (passedFlags false .lvalue).unit.isBuiltin "Flag" = false := by decide
  obtain ⟨v, _, hdecls, hrun⟩ := run_of_muted (passedFlags false .lvalue)
    (List.mem_cons_of_mem _ List.mem_cons_self) rfl hoperand hbuiltin (.inl rfl)
  exact ⟨hoperand, hbuiltin, v, by rw [hdecls]; rfl, hrun⟩

/-- A constant rvalue reference is a constant reference: the equality is found, and without its
operator there is none. -/
theorem run_of_rvalueFlags :
    (flagEquality true .rvalue).DeclaresOperand ⟨"Flag", true, .rvalue⟩ ∧
      (passedFlags true .rvalue).unit.isBuiltin "Flag" = false ∧
      ∃ v : SourceUnit, v.types = (passedFlags true .rvalue).unit.types ∧
        v.decls = (passedFlags true .rvalue).unit.decls.set 1 ⟨⟨1⟩, "operator==", none, true,
          .function { flagEquality true .rvalue with operator := none }⟩ ∧
        ∃ r s, (passedFlags true .rvalue).run = .ok r ∧
          ({ passedFlags true .rvalue with unit := v } : Analysis).run = .ok s ∧
          r.equality.get? ⟨⟨0⟩⟩ = some .foundByConsumer ∧
          s.equality.get? ⟨⟨0⟩⟩ = some .unavailable := by
  refine ⟨.parameter (.inl rfl) List.mem_cons_self, by decide,
    (passedFlags true .rvalue).unit.viewed (.muting ⟨1⟩) fun _ => rfl, rfl, rfl,
    _, _, run_eq_results _, run_eq_results _, by decide, by decide⟩

end Analysis

end InteropWitness

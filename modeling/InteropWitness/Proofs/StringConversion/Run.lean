import InteropWitness.Proofs.Pass.Run
import InteropWitness.Proofs.Relation.Evidence
import InteropWitness.Proofs.StringConversion.Entries

namespace InteropWitness.StringConversion

/-- The consumer can put values of the type into a stream by calling the function. -/
structure Inserts (ctx : Context) (f : FunctionDecl) (ty : TypeKey) : Prop where
  operator : f.operator = some .insertion
  present : f.isDeleted = false
  accessible : f.access.isVisible = true
  operands : ∃ value, f.params = [.mutRef ctx.config.streamType, value] ∧
    ctx.unit.operandType? value = some ty
  passesOn : f.returnType = .mutRef ctx.config.streamType
  usable : ctx.isUsable ty = true

def Streamable (ctx : Context) (ty : TypeKey) : Prop :=
  ∃ d ∈ ctx.unit.decls, ∃ f, d.kind = .function f ∧ Inserts ctx f ty

/-- A type that the declaration converts to is a builtin number or can be put into a stream. -/
def Describable (ctx : Context) (d : Decl) : Prop :=
  ∃ ty ∈ ctx.unit.conversionClosure .selfTypeLast d,
    ctx.unit.isArithmetic ty = true ∨ Streamable ctx ty

theorem isStream_iff {config : Config} {q : QualType} :
    isStream config q = true ↔ q = .mutRef config.streamType := by
  obtain ⟨ty, isConst, reference⟩ := q
  simp only [isStream, QualType.mutRef, Bool.and_eq_true, decide_eq_true_eq, Bool.not_eq_true',
    QualType.mk.injEq]
  constructor
  · intro h
    obtain ⟨⟨hr, hc⟩, ht⟩ := h
    exact ⟨ht, hc, hr⟩
  · intro h
    obtain ⟨ht, hc, hr⟩ := h
    exact ⟨⟨hr, hc⟩, ht⟩

theorem accepted?_eq_some_iff {ctx : Context} {f : FunctionDecl} {ty : TypeKey} :
    accepted? ctx f = some ty ↔ Inserts ctx f ty := by
  have hcalled : (f.operator = some .insertion && f.isVisible) = true ↔
      f.operator = some .insertion ∧ f.isDeleted = false ∧ f.access.isVisible = true := by
    simp [FunctionDecl.isVisible]
  unfold accepted?
  constructor
  · intro h
    split at h
    · next hc =>
      obtain ⟨hop, hpresent, haccess⟩ := hcalled.1 hc
      split at h
      · next stream value hp =>
        split at h
        · next hs =>
          obtain ⟨hstream, hreturn⟩ := Bool.and_eq_true_iff.1 hs
          obtain ⟨hty, huse⟩ := Relation.usableOperand?_eq_some_iff.1 h
          rw [isStream_iff.1 hstream] at hp
          exact ⟨hop, hpresent, haccess, ⟨value, hp, hty⟩, isStream_iff.1 hreturn, huse⟩
        · cases h
      · cases h
    · cases h
  · intro h
    obtain ⟨value, hp, hty⟩ := h.operands
    have hstreams : (isStream ctx.config (.mutRef ctx.config.streamType) &&
        isStream ctx.config f.returnType) = true :=
      Bool.and_eq_true_iff.2 ⟨isStream_iff.2 rfl, isStream_iff.2 h.passesOn⟩
    rw [if_pos (hcalled.2 ⟨h.operator, h.present, h.accessible⟩), hp]
    simp only [hstreams, if_true]
    exact Relation.usableOperand?_eq_some_iff.2 ⟨hty, h.usable⟩

variable (ctx : Context)

/-- The types that the traversal comes by as accepted, in its order. -/
def candidates : List TypeKey :=
  (ctx.unit.decls.filterMap (·.function?)).foldl (fun tys f => visitFunction ctx f tys) []

def resolved : Store StringVerdict :=
  (opened ctx).mapValues (ctx.settled fun _ => judge ctx.unit (candidates ctx))

variable {ctx}

theorem mem_foldl_visitFunction {functions : List FunctionDecl} {tys : List TypeKey}
    {ty : TypeKey} :
    ty ∈ functions.foldl (fun tys f => visitFunction ctx f tys) tys ↔
      ty ∈ tys ∨ ∃ f ∈ functions, accepted? ctx f = some ty := by
  induction functions generalizing tys with
  | nil => simp
  | cons f rest ih =>
    have hstep : ty ∈ visitFunction ctx f tys ↔ ty ∈ tys ∨ accepted? ctx f = some ty := by
      unfold visitFunction
      cases accepted? ctx f with
      | none => simp
      | some other =>
        simp only
        split
        · next hmem =>
          constructor
          · exact Or.inl
          · intro h
            rcases h with h | h
            · exact h
            · cases h
              exact hmem
        · simp [eq_comm]
    rw [List.foldl_cons, ih, hstep, List.exists_mem_cons_iff, or_assoc]

theorem mem_candidates_iff {ty : TypeKey} : ty ∈ candidates ctx ↔ Streamable ctx ty := by
  rw [candidates, mem_foldl_visitFunction]
  simp only [List.not_mem_nil, false_or, Relation.mem_functions_iff, accepted?_eq_some_iff]
  constructor
  · intro h
    obtain ⟨f, ⟨d, hd, hkind⟩, hf⟩ := h
    exact ⟨d, hd, f, hkind, hf⟩
  · intro h
    obtain ⟨d, hd, f, hkind, hf⟩ := h
    exact ⟨f, ⟨d, hd, hkind⟩, hf⟩

theorem judge_cases (ctx : Context) (d : Decl) :
    (Describable ctx d ∧ judge ctx.unit (candidates ctx) d = .streamed) ∨
      (¬Describable ctx d ∧ judge ctx.unit (candidates ctx) d = .noCandidate) := by
  have hany : ((ctx.unit.conversionClosure .selfTypeLast d).any fun ty =>
      ty ∈ candidates ctx || ctx.unit.isArithmetic ty) = true ↔ Describable ctx d := by
    simp only [List.any_eq_true, Bool.or_eq_true, decide_eq_true_eq, mem_candidates_iff, or_comm,
      Describable]
  by_cases h : Describable ctx d
  · exact Or.inl ⟨h, if_pos (hany.2 h)⟩
  · exact Or.inr ⟨h, if_neg fun hfound => h (hany.1 hfound)⟩

theorem judge_congr {tys tys' : List TypeKey} (h : ∀ ty, ty ∈ tys ↔ ty ∈ tys') (u : SourceUnit)
    (d : Decl) : judge u tys d = judge u tys' d := by
  simp only [judge, h]

theorem foldl_visit (decls : List Decl) (s : StringState) :
    decls.foldl (fun s d => visit ctx ctx.config.stringTable d s) s =
      ⟨(decls.filterMap (·.function?)).foldl (fun tys f => visitFunction ctx f tys) s.candidates,
        decls.foldl (fun store d => enter ctx d store) s.store⟩ := by
  induction decls generalizing s with
  | nil => rfl
  | cons d rest ih =>
    rw [List.foldl_cons, ih]
    cases hkind : d.kind with
    | record r => simp [visit, enter, hkind, Decl.function?]
    | enumeration e => simp [visit, enter, hkind, Decl.function?]
    | function f => simp [visit, enter, hkind, Decl.function?]
    | other => simp [visit, enter, hkind, Decl.function?]

theorem gathered_analysis :
    (analysis ctx.config).gathered ctx = ⟨candidates ctx, opened ctx⟩ :=
  foldl_visit ctx.unit.decls ⟨[], .empty⟩

theorem decides (ctx : Context) :
    (analysis ctx.config).Decides ctx (fun s => ∀ ty, ty ∈ s.candidates ↔ ty ∈ candidates ctx)
      (opened ctx) fun _ => judge ctx.unit (candidates ctx) where
  visits _ _ := rfl
  gathers := by
    rw [gathered_analysis]
    exact ⟨fun _ => Iff.rfl, rfl⟩
  resolves _ := exists_defining_of_mem_opened
  keeps s entity v hv hclosed := by
    change s.store.get? entity = some v at hv
    simp only [analysis, finalize, hv, if_neg (of_decide_eq_false hclosed)]
  closes s entity v d hs hv hopen hd := by
    change s.store.get? entity = some v at hv
    refine ⟨{ s with store := s.store.assign entity (judge ctx.unit (candidates ctx) d) }, ?_, hs,
      rfl⟩
    simp only [analysis, finalize, hv, if_pos (of_decide_eq_true hopen), Context.defining, hd,
      judge_congr hs]
  decided _ d := by
    rcases judge_cases ctx d with ⟨_, hj⟩ | ⟨_, hj⟩
    · rw [hj]
      rfl
    · rw [hj]
      rfl

/-- The store of a run: the entries of the traversal, each open one decided by the types that its
definition converts to. -/
theorem run_eq_resolved (ctx : Context) :
    (analysis ctx.config).run ctx = .ok (resolved ctx) := (decides ctx).run_eq

end InteropWitness.StringConversion

import InteropWitness.Proofs.Pass.Run
import InteropWitness.Proofs.Relation.Entries
import InteropWitness.Proofs.Relation.Evidence
import InteropWitness.Proofs.Relation.Search

namespace InteropWitness.Relation

variable (ctx : Context) (relation : Relation)

/-- An override forces the declaration to be unavailable. -/
def Forced (d : Decl) : Prop :=
  ∃ o ∈ ctx.config.relationTable, o.action = .forceUnavailable ∧ o.covers d relation = true

instance (d : Decl) : Decidable (Forced ctx relation d) := by
  unfold Forced
  infer_instance

/-- What the relation asks of an entity besides witnesses: nothing for equality, and an available
equality for ordering. -/
def permits (entity : Identity) : Bool :=
  match relation with
  | .equality => true
  | .ordering => ctx.frozenEquality.any fun store => (store.get? entity).any (·.isAvailable)

/-- The results of equality can be read, if the relation reads them. -/
def Ready : Prop := relation = .ordering → ctx.frozenEquality.isSome = true

/-- The verdict that a search comes to in the light of the overrides. -/
def overridden (d : Decl) (v : RelationVerdict) : RelationVerdict :=
  if Forced ctx relation d then .unavailable
  else if v = .foundByConsumer &&
      RelationOverride.prescribes ctx.config.relationTable .missedByConsumer d relation then
    .missedByConsumer
  else v

def verdict (entity : Identity) (d : Decl) : RelationVerdict :=
  if permits ctx relation entity then
    overridden ctx relation d
      (ctx.unit.searchWitness (.ofList (witnesses ctx relation)) d)
  else .blockedByEquality

variable {ctx relation}

theorem forced_iff {d : Decl} :
    RelationOverride.prescribes ctx.config.relationTable .forceUnavailable d relation = true ↔
      Forced ctx relation d := by
  simp [RelationOverride.prescribes, Forced]

theorem overridden_of_forced {d : Decl} (h : Forced ctx relation d) (v : RelationVerdict) :
    overridden ctx relation d v = .unavailable := if_pos h

theorem gate_eq (h : Ready ctx relation) (entity : Identity) (v : RelationVerdict) :
    gate ctx relation entity v =
      .ok (if permits ctx relation entity then v else .blockedByEquality) := by
  cases relation with
  | equality => rfl
  | ordering =>
    obtain ⟨store, hstore⟩ := Option.isSome_iff_exists.1 (h rfl)
    simp [gate, permits, Context.equality, hstore]

/-- The witness set answers as the one of the traversal does, however it came about. -/
def Knows (ctx : Context) (relation : Relation) (w : WitnessSet) : Prop :=
  ∀ a b, w.find? a b = (WitnessSet.ofList (witnesses ctx relation)).find? a b

theorem judge_eq (h : Ready ctx relation) {w : WitnessSet} (hw : Knows ctx relation w)
    (entity : Identity) (d : Decl) :
    judge ctx relation ctx.config.relationTable w entity d =
      .ok (verdict ctx relation entity d) := by
  simp only [judge, gate_eq h, Except.map, SourceUnit.searchWitness_congr hw]
  cases hp : permits ctx relation entity with
  | false => simp [verdict, hp]
  | true =>
    by_cases hf : Forced ctx relation d
    · simp [verdict, hp, overridden_of_forced hf, forced_iff.2 hf]
    · have hforced : RelationOverride.prescribes ctx.config.relationTable .forceUnavailable d
          relation = false := Bool.eq_false_iff.2 fun hf' => hf (forced_iff.1 hf')
      simp [verdict, hp, overridden, hf, hforced]

theorem isAvailable_overridden {d : Decl} (h : ¬Forced ctx relation d) (v : RelationVerdict) :
    (overridden ctx relation d v).isAvailable = v.isAvailable := by
  unfold overridden
  rw [if_neg h]
  split
  · next hv =>
    simp only [Bool.and_eq_true, decide_eq_true_eq] at hv
    rw [hv.1]
    rfl
  · rfl

/-- What an open entry can end as once the relation permits it: plainly unavailable, a verdict that
a search comes to, or the one that an override puts in the place of the highest of these. -/
inductive Judged : RelationVerdict → Prop
  | unavailable : Judged .unavailable
  | missed : Judged .missedByConsumer
  | ranked {v : RelationVerdict} (h : 0 < v.level) : Judged v

theorem Judged.unavailable_or_available {v : RelationVerdict} (h : Judged v) :
    v = .unavailable ∨ v.isAvailable = true := by
  cases h with
  | unavailable => exact Or.inl rfl
  | missed => exact Or.inr rfl
  | ranked hlevel => exact Or.inr (RelationVerdict.isAvailable_of_level_pos hlevel)

theorem judged_overridden (u : SourceUnit) (w : WitnessSet) (d : Decl) :
    Judged (overridden ctx relation d (u.searchWitness w d)) := by
  unfold overridden
  split
  · exact .unavailable
  · split
    · exact .missed
    · rcases u.searchWitness_cases w d with ⟨_, hv⟩ | ⟨_, hv⟩
      · rw [hv]
        exact .unavailable
      · exact .ranked hv

theorem judged_verdict (ctx : Context) (relation : Relation) (entity : Identity) (d : Decl) :
    verdict ctx relation entity d = .blockedByEquality ∨
      Judged (verdict ctx relation entity d) := by
  unfold verdict
  split
  · exact Or.inr (judged_overridden _ _ _)
  · exact Or.inl rfl

/-- Once the relation permits it, an open entry ends available or plainly unavailable. -/
theorem verdict_cases (ctx : Context) (relation : Relation) (entity : Identity) (d : Decl) :
    (permits ctx relation entity = false ∧ verdict ctx relation entity d = .blockedByEquality) ∨
      (permits ctx relation entity = true ∧ (verdict ctx relation entity d = .unavailable ∨
        (verdict ctx relation entity d).isAvailable = true)) := by
  unfold verdict
  cases permits ctx relation entity with
  | false => exact Or.inl ⟨rfl, rfl⟩
  | true => exact Or.inr ⟨rfl, (judged_overridden _ _ _).unavailable_or_available⟩

theorem verdict_ne_unknown (entity : Identity) (d : Decl) :
    verdict ctx relation entity d ≠ .unknown := by
  intro h
  rcases verdict_cases ctx relation entity d with ⟨_, hv⟩ | ⟨_, hv | hv⟩
  · rw [h] at hv
    cases hv
  · rw [h] at hv
    cases hv
  · rw [h] at hv
    cases hv

/-- Two types that the declaration converts to, neither of them bool, can be compared: both are
builtin numbers, or a function that the unit declares compares them. -/
def Supported (ctx : Context) (relation : Relation) (d : Decl) : Prop :=
  ∃ first ∈ ctx.unit.conversionClosure .selfTypeBeforeConversions d,
    ∃ second ∈ ctx.unit.conversionClosure .selfTypeBeforeConversions d,
      ctx.unit.isBool first = false ∧ ctx.unit.isBool second = false ∧
        ((ctx.unit.isArithmetic first = true ∧ ctx.unit.isArithmetic second = true) ∨
          HasWitness ctx relation first second)

theorem isAvailable_verdict_iff {entity : Identity} {d : Decl}
    (hp : permits ctx relation entity = true) (hf : ¬Forced ctx relation d) :
    (verdict ctx relation entity d).isAvailable = true ↔ Supported ctx relation d := by
  rw [verdict, if_pos hp, isAvailable_overridden hf, SourceUnit.isAvailable_searchWitness_iff,
    SourceUnit.proposals_ne_nil_iff]
  simp only [SourceUnit.Comparable, isSome_find?_witnesses, Supported]

def resolved (ctx : Context) (relation : Relation) : Store RelationVerdict :=
  (opened ctx).mapValues (ctx.settled (verdict ctx relation))

theorem foldl_visit (decls : List Decl) (s : RelationState) :
    decls.foldl (fun s d => visit ctx relation d s) s =
      ⟨((decls.filterMap (·.function?)).flatMap (contributions ctx relation)).foldl
          (fun w e => w.insert e.1 e.2.1 e.2.2) s.witnesses,
        decls.foldl (fun store d => enter ctx d store) s.store⟩ := by
  induction decls generalizing s with
  | nil => rfl
  | cons d rest ih =>
    rw [List.foldl_cons, ih]
    cases hkind : d.kind with
    | record r => simp [visit, enter, hkind, Decl.function?, Decl.tagType?]
    | enumeration e => simp [visit, enter, hkind, Decl.function?, Decl.tagType?]
    | function f =>
      simp [visit, enter, hkind, Decl.function?, Decl.tagType?, visitFunction_eq_foldl,
        List.foldl_append]
    | other => simp [visit, enter, hkind, Decl.function?, Decl.tagType?]

theorem gathered_analysis (config : Config) :
    (relation.analysis config).gathered ctx =
      ⟨.ofList (witnesses ctx relation), opened ctx⟩ :=
  foldl_visit ctx.unit.decls ⟨.empty, .empty⟩

theorem finalize_of_decided {s : RelationState} {entity : Identity} {v : RelationVerdict}
    (hv : s.store.get? entity = some v) (hclosed : Verdict.isUnknown v = false) :
    (relation.analysis ctx.config).finalize ctx entity s = (s, none) := by
  simp only [analysis, finalize, hv, if_neg (of_decide_eq_false hclosed)]

theorem decides (h : Ready ctx relation) :
    (relation.analysis ctx.config).Decides ctx (fun s => Knows ctx relation s.witnesses)
      (opened ctx) (verdict ctx relation) where
  visits _ _ := rfl
  gathers := by
    rw [gathered_analysis]
    exact ⟨fun _ _ => rfl, rfl⟩
  resolves _ := exists_defining_of_mem_opened
  keeps _ _ _ := finalize_of_decided
  closes s entity v d hs hv hopen hd := by
    change s.store.get? entity = some v at hv
    have hjudge : (ctx.defining entity).bind
        (judge ctx relation ctx.config.relationTable s.witnesses entity) =
          .ok (verdict ctx relation entity d) := by
      rw [Context.defining, hd]
      exact judge_eq h hs entity d
    refine ⟨{ s with store := s.store.assign entity (verdict ctx relation entity d) }, ?_, hs, rfl⟩
    simp only [analysis, finalize, hv, if_pos (of_decide_eq_true hopen), hjudge]
  decided entity d := decide_eq_false (verdict_ne_unknown entity d)

/-- The store of a run: the entries of the traversal, each open one with the verdict that the
recorded witnesses, the overrides and, for ordering, the frozen results of equality come to. -/
theorem run_eq_resolved (h : Ready ctx relation) :
    (relation.analysis ctx.config).run ctx = .ok (resolved ctx relation) := (decides h).run_eq

/-- A value import leaves an entry to the verdict, and any other import class decides it. -/
theorem settled_opening {entity : Identity} {d : Decl}
    (hd : ctx.unit.defining? entity = some d) (i : ImportClass) :
    ctx.settled (verdict ctx relation) entity i.opening =
      if i = .value then verdict ctx relation entity d else i.opening := by
  by_cases hvalue : i = .value
  · have hopen : i.opening = .unknown := ImportClass.opening_eq_unknown_iff.2 hvalue
    rw [if_pos hvalue, Context.settled_of_open (decide_eq_true hopen) hd]
  · have hclosed : i.opening ≠ .unknown := fun h => hvalue (ImportClass.opening_eq_unknown_iff.1 h)
    rw [if_neg hvalue, Context.settled_of_decided (decide_eq_false hclosed)]

theorem get?_resolved_iff {entity : Identity} {v : RelationVerdict} :
    (resolved ctx relation).get? entity = some v ↔
      ctx.unit.Reports entity ∧ ∃ i, ctx.import? entity = some i ∧
        ∃ d, ctx.unit.defining? entity = some d ∧
          v = if i = .value then verdict ctx relation entity d else i.opening := by
  rw [resolved, OrderedMap.get?_mapValues, Option.map_eq_some_iff]
  constructor
  · intro h
    obtain ⟨old, hold, rfl⟩ := h
    obtain ⟨hreports, himport⟩ := get?_opened_iff.1 hold
    obtain ⟨i, hi, rfl⟩ := Option.map_eq_some_iff.1 himport
    obtain ⟨d, _, hd, _⟩ := exists_defining_of_mem_opened (OrderedMap.mem_keys_of_get? hold)
    exact ⟨hreports, i, hi, d, hd, settled_opening hd i⟩
  · intro h
    obtain ⟨hreports, i, hi, d, hd, rfl⟩ := h
    exact ⟨i.opening, get?_opened_iff.2 ⟨hreports, by rw [hi]; rfl⟩, settled_opening hd i⟩

end InteropWitness.Relation

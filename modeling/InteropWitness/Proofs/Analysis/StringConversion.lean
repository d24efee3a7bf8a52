import InteropWitness.Proofs.Analysis.Run
import InteropWitness.Proofs.StringConversion.Redeclaration

namespace InteropWitness

/-- The last entry of the table that covers the declaration. -/
def StringOverride.last? (table : List StringOverride) (u : SourceUnit) (d : Decl) :
    Option StringOverride :=
  (table.filter (·.matcher.covers u d)).getLast?

theorem StringOverride.getLast?_matching {table : List StringOverride} {u : SourceUnit} {d : Decl} :
    (matching table u d).getLast? = (last? table u d).map (·.verdict) := by
  rw [matching, last?, List.getLast?_map]

namespace StringConversion

/-- The entry that a library record of an import class has after the traversal. -/
def opening (ctx : Context) (d : Decl) (i : ImportClass) : StringVerdict :=
  if !i.isImported then .blockedByImport
  else if i = .nonCopyable then .nonCopyable
  else ((StringOverride.last? ctx.config.stringTable ctx.unit d).map (·.verdict)).getD .unknown

/-- The verdict on a library record of an import class. -/
def recordVerdict (ctx : Context) (d : Decl) (i : ImportClass) : StringVerdict :=
  if opening ctx d i = .unknown then judge ctx.unit (candidates ctx) d else opening ctx d i

variable {ctx : Context} {d : Decl}

theorem revised_none {r : RecordDecl} (hkind : d.kind = .record r) (hlibrary : d.inLibrary = true) :
    revised ctx d none = (ctx.import? d.identity).map (opening ctx d) := by
  simp only [revised, hkind, revisedByRecord, hlibrary, if_true, StringOverride.getLast?_matching]
  cases ctx.import? d.identity with
  | none => rfl
  | some i =>
    simp only [Option.map_some, opening]
    split_ifs
    · rfl
    · rfl
    · rfl

theorem get?_resolved_of_record (hu : ctx.unit.RedeclaredAlike) (hd : d ∈ ctx.unit.decls)
    {r : RecordDecl} (hkind : d.kind = .record r) (hlibrary : d.inLibrary = true) :
    (resolved ctx).get? d.identity = (ctx.import? d.identity).map (recordVerdict ctx d) := by
  rw [get?_resolved_of_alike hu hd, revised_none hkind hlibrary, Option.map_map]
  rfl

theorem recordVerdict_of_blocked {i : ImportClass} (hblocked : i.isImported = false) :
    recordVerdict ctx d i = .blockedByImport := by
  simp [recordVerdict, opening, hblocked]

theorem recordVerdict_nonCopyable : recordVerdict ctx d .nonCopyable = .nonCopyable := by
  simp [recordVerdict, opening, ImportClass.isImported]

section Copied

variable (ctx) {i : ImportClass} (himported : i.isImported = true) (hcopied : i ≠ .nonCopyable)
include himported hcopied

/-- An override decides a record for good unless it leaves it open. -/
theorem recordVerdict_of_override {o : StringOverride}
    (hlast : StringOverride.last? ctx.config.stringTable ctx.unit d = some o)
    (hdecided : o.verdict ≠ .unknown) : recordVerdict ctx d i = o.verdict := by
  have hopening : opening ctx d i = o.verdict := by
    simp [opening, himported, hcopied, hlast]
  rw [recordVerdict, hopening, if_neg hdecided]

theorem recordVerdict_of_open
    (hopen : ∀ o, StringOverride.last? ctx.config.stringTable ctx.unit d = some o →
      o.verdict = .unknown) :
    (recordVerdict ctx d i = .streamed ↔ Describable ctx d) ∧
      (recordVerdict ctx d i = .noCandidate ↔ ¬Describable ctx d) := by
  have hopening : opening ctx d i = .unknown := by
    cases hlast : StringOverride.last? ctx.config.stringTable ctx.unit d with
    | none => simp [opening, himported, hcopied, hlast]
    | some o => simp [opening, himported, hcopied, hlast, hopen o hlast]
  rw [recordVerdict, hopening, if_pos rfl]
  rcases judge_cases ctx d with ⟨hd, hjudge⟩ | ⟨hd, hjudge⟩
  · simp [hd, hjudge]
  · simp [hd, hjudge]

end Copied

end StringConversion

namespace Analysis

/-- For every analysis of a unit whose redeclarations repeat what they redeclare, and every record
of the library: without an import class it has no result; one that is not imported or not copied is
not looked into; for any other the last override that covers it decides, and where none does, it is
available exactly if a type that it converts to is a builtin number or can be put into a stream. -/
theorem string_conversion_of_record (a : Analysis) (hu : a.unit.RedeclaredAlike) {d : Decl}
    {r : RecordDecl} (hd : d ∈ a.unit.decls) (hkind : d.kind = .record r)
    (hlibrary : d.inLibrary = true) :
    ∃ res, a.run = .ok res ∧
      (a.inputs.imports.get? d.identity = none → res.stringConversion.get? d.identity = none) ∧
      ∀ i, a.inputs.imports.get? d.identity = some i →
        ∃ v, res.stringConversion.get? d.identity = some v ∧
          (i.isImported = false → v = .blockedByImport) ∧
          (i = .nonCopyable → v = .nonCopyable) ∧
          (i.isImported = true → i ≠ .nonCopyable →
            (∀ o, StringOverride.last? a.config.stringTable a.unit d = some o →
              o.verdict ≠ .unknown → v = o.verdict) ∧
            ((∀ o, StringOverride.last? a.config.stringTable a.unit d = some o →
                o.verdict = .unknown) →
              (v = .streamed ↔ StringConversion.Describable a.stringContext d) ∧
              (v = .noCandidate ↔ ¬StringConversion.Describable a.stringContext d))) := by
  have hentry : a.results.stringConversion.get? d.identity =
      (a.inputs.imports.get? d.identity).map (StringConversion.recordVerdict a.stringContext d) :=
    StringConversion.get?_resolved_of_record hu hd hkind hlibrary
  refine ⟨a.results, a.run_eq_results, fun himport => ?_, fun i himport => ?_⟩
  · rw [hentry, himport]
    rfl
  · rw [himport] at hentry
    refine ⟨_, hentry, StringConversion.recordVerdict_of_blocked, ?_, ?_⟩
    · intro hcopied
      rw [hcopied]
      exact StringConversion.recordVerdict_nonCopyable
    · intro himported hcopied
      exact ⟨fun o =>
          StringConversion.recordVerdict_of_override a.stringContext himported hcopied,
        StringConversion.recordVerdict_of_open a.stringContext himported hcopied⟩

/-- A record, declared again, that converts to a type with a stream insertion. -/
def labels : Analysis where
  unit :=
    { decls :=
        [⟨⟨0⟩, "Token", none, true, .record ⟨"Token", [], [], none⟩⟩,
          ⟨⟨1⟩, "Label", none, true,
            .record ⟨"Label", [], [.plain "Token" .publicAccess], none⟩⟩,
          ⟨⟨2⟩, "Label", some ⟨1⟩, true,
            .record ⟨"Label", [], [.plain "Token" .publicAccess], none⟩⟩,
          ⟨⟨3⟩, "operator<<", none, true, .function
            ⟨some .insertion, [.mutRef "std::ostream", .constRef "Token"], .mutRef "std::ostream",
              none, .unspecified, false, false, false⟩⟩]
      types := OrderedMap.ofList
        [("std::ostream", .other), ("Token", .record ⟨0⟩), ("Label", .record ⟨1⟩)]
      wellFormed := WellFormed.fault?_eq_none_iff.1 (by decide) }
  inputs := ⟨.ofList [(⟨⟨0⟩⟩, .value), (⟨⟨1⟩⟩, .sharedReference)], .empty⟩
  config := .default

theorem labels_inserts :
    StringConversion.Streamable labels.stringContext "Token" := by
  refine ⟨_, List.mem_cons_of_mem _ (List.mem_cons_of_mem _ (List.mem_cons_of_mem _
    List.mem_cons_self)), _, rfl, ?_⟩
  exact
    { operator := rfl
      present := rfl
      accessible := rfl
      operands := ⟨.constRef "Token", rfl, by decide⟩
      passesOn := rfl
      usable := by decide }

/-- The record is available through the insertion of what it converts to. -/
theorem string_conversion_labels :
    labels.unit.RedeclaredAlike ∧ ∃ res, labels.run = .ok res ∧
      res.stringConversion.get? ⟨⟨1⟩⟩ = some .streamed := by
  have hu : labels.unit.RedeclaredAlike := by decide
  obtain ⟨res, hr, _, hall⟩ := string_conversion_of_record labels hu
    (List.getElem_mem (by decide : 2 < labels.unit.decls.length)) rfl rfl
  obtain ⟨v, hv, _, _, hcopied⟩ := hall .sharedReference (by decide)
  obtain ⟨hstreamed, _⟩ := (hcopied (by decide) (by decide)).2 (by decide)
  have htoken : "Token" ∈ labels.unit.conversionClosure .selfTypeLast labels.unit.decls[2] :=
    List.mem_eraseDups.2 (List.mem_append_right _ List.mem_cons_self)
  rw [hstreamed.2 ⟨_, htoken, Or.inr labels_inserts⟩] at hv
  exact ⟨hu, res, hr, hv⟩

end Analysis

end InteropWitness

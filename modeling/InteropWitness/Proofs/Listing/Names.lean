import InteropWitness.Listing
import InteropWitness.Proofs.SourceUnit.Steps
import InteropWitness.Proofs.Verdict.Token

namespace InteropWitness

namespace SourceUnit

variable {u : SourceUnit} {d e : Decl}

/-- Another entity has the name of the declaration before its own entity has it. -/
def Shadowed (u : SourceUnit) (d : Decl) : Prop :=
  ∃ before other after, u.decls = before ++ other :: after ∧
    other.name = d.name ∧ other.identity ≠ d.identity ∧
    ∀ b ∈ before, b.name = d.name → b.identity ≠ d.identity

theorem named?_eq_some_iff {name : String} :
    u.named? name = some e ↔ e.name = name ∧
      ∃ before after, u.decls = before ++ e :: after ∧ ∀ b ∈ before, b.name ≠ name := by
  simp [named?, List.find?_eq_some_iff_append]

theorem exists_named (hd : d ∈ u.decls) : ∃ e ∈ u.decls, u.named? d.name = some e := by
  cases hnamed : u.named? d.name with
  | none =>
    rw [named?, List.find?_eq_none] at hnamed
    exact absurd (decide_eq_true rfl) (hnamed d hd)
  | some e => exact ⟨e, List.mem_of_find?_eq_some hnamed, rfl⟩

theorem shadowed_iff_of_named (hnamed : u.named? d.name = some e) :
    u.Shadowed d ↔ e.identity ≠ d.identity := by
  constructor
  · rintro ⟨before, other, after, hdecls, hname, hother, hbefore⟩
    rw [named?, hdecls, List.find?_append] at hnamed
    cases hfirst : before.find? fun b => b.name = d.name with
    | none =>
      rw [hfirst, Option.none_or, List.find?_cons_of_pos (by simpa using hname)] at hnamed
      rwa [← Option.some.inj hnamed]
    | some b =>
      rw [hfirst, Option.some_or] at hnamed
      rw [← Option.some.inj hnamed]
      have hsame : b.name = d.name := by simpa using List.find?_some hfirst
      exact hbefore b (List.mem_of_find?_eq_some hfirst) hsame
  · intro hother
    obtain ⟨hname, before, after, hdecls, hbefore⟩ := named?_eq_some_iff.1 hnamed
    exact ⟨before, e, after, hdecls, hname, hother, fun b hb hsame => absurd hsame (hbefore b hb)⟩

section Built

/-- The step declares a new entity of the name. -/
def Step.introduces (name : String) (step : Step) : Bool :=
  step.kind?.isSome && step.name = name

theorem Step.introduces_of_not_declares {name : String} {step : Step}
    (h : step.declares = false) : step.introduces name = false := by
  cases step with
  | builtin _ _ | dependent _ | plainType _ => rfl
  | record _ _ _ | enumeration _ _ _ | function _ _ | other _ _ | redeclare _ => cases h

/-- The declaration has the name and repeats no other one. -/
def introducedAs (name : String) (d : Decl) : Bool := d.definition = none && d.name = name

theorem introducedAs_of_adds {b : Builder} {step : Step} {d : Decl} (h : b.Adds step d)
    (name : String) : introducedAs name d = step.introduces name := by
  cases h with
  | new hkind inLibrary => simp [introducedAs, Step.introduces, hkind]
  | again hd => simp [introducedAs, Step.introduces, Step.kind?, Builder.copy]
  | unknown hnone => simp [introducedAs, Step.introduces, Step.kind?]

variable {steps : List Step}

theorem countP_introducedAs (steps : List Step) (name : String) :
    (Builder.after steps).decls.countP (introducedAs name) =
      steps.countP (Step.introduces name) := by
  induction steps using List.reverseRecOn with
  | nil => rfl
  | append_singleton steps step ih =>
    rw [Builder.after_concat, List.countP_append, List.countP_singleton, ← ih]
    rcases (Builder.after steps).decls_apply step with ⟨hdeclares, hsame⟩ | ⟨_, d, hadds, hadd⟩
    · rw [hsame, Step.introduces_of_not_declares hdeclares]
      rfl
    · rw [hadd, List.countP_append, List.countP_singleton, introducedAs_of_adds hadds]

/-- A redeclaration has the name of the new entity that it leads to. -/
theorem exists_introduction (hknown : Known steps) {d : Decl}
    (hd : d ∈ (Builder.after steps).decls) :
    ∃ e ∈ (Builder.after steps).decls, introducedAs d.name e = true ∧
      e.identity = d.identity := by
  induction steps using List.reverseRecOn generalizing d with
  | nil => cases hd
  | append_singleton steps step ih =>
    have hearlier : Known steps := fun before earlier h =>
      hknown before earlier (h.trans (List.prefix_append steps [step]))
    rw [Builder.after_concat] at hd ⊢
    have hkept := (Builder.after steps).decls_prefix_apply step
    have hold : ∀ e ∈ (Builder.after steps).decls,
        ∃ f ∈ ((Builder.after steps).apply step).decls, introducedAs e.name f = true ∧
          f.identity = e.identity := by
      intro e he
      obtain ⟨f, hf, hintroduced⟩ := ih hearlier he
      exact ⟨f, hkept.subset hf, hintroduced⟩
    rcases (Builder.after steps).decls_apply step with ⟨_, hsame⟩ | ⟨_, e, hadds, hadd⟩
    · rw [hsame] at hd
      exact hold d hd
    · have hmem := hd
      rw [hadd, List.mem_append, List.mem_singleton] at hmem
      rcases hmem with hbefore | rfl
      · exact hold d hbefore
      · cases hadds with
        | new hkind inLibrary => exact ⟨_, hd, by simp [introducedAs], rfl⟩
        | @again earlier original horiginal =>
          exact hold original (List.mem_of_getElem? horiginal)
        | @unknown earlier hnone =>
          have hreturned := hknown steps earlier List.prefix_rfl
          rw [exists_returns_iff] at hreturned
          exact absurd (List.getElem?_eq_none_iff.1 hnone) (Nat.not_le.2 hreturned)

theorem eq_of_countP_le_one {α : Type} {p : α → Bool} {items : List α} (h : items.countP p ≤ 1)
    {a b : α} (ha : a ∈ items) (hb : b ∈ items) (hpa : p a = true) (hpb : p b = true) : a = b := by
  have hfa : a ∈ items.filter p := List.mem_filter.2 ⟨ha, hpa⟩
  have hfb : b ∈ items.filter p := List.mem_filter.2 ⟨hb, hpb⟩
  rw [List.countP_eq_length_filter] at h
  match items.filter p, h, hfa, hfb with
  | [c], _, hfa, hfb => rw [List.mem_singleton.1 hfa, List.mem_singleton.1 hfb]

/-- In a unit that is built of known redeclarations, a name that is introduced once stands for one
entity, however often and wherever that is declared again. -/
theorem not_shadowed_of_build (hbuild : build steps = .ok u) (hknown : Known steps) {d : Decl}
    (hd : d ∈ u.decls) (honce : steps.countP (Step.introduces d.name) ≤ 1) : ¬u.Shadowed d := by
  rintro ⟨before, other, after, hdecls, hname, hother, _⟩
  have hmem : other ∈ u.decls := by rw [hdecls]; simp
  rw [← (build_eq_ok_iff.1 hbuild).1] at hd hmem
  obtain ⟨e, he, hintroduced, hidentity⟩ := exists_introduction hknown hd
  obtain ⟨f, hf, hintroduced', hidentity'⟩ := exists_introduction hknown hmem
  rw [hname] at hintroduced'
  rw [← countP_introducedAs] at honce
  rw [eq_of_countP_le_one honce he hf hintroduced hintroduced', hidentity'] at hidentity
  exact hother hidentity

end Built

end SourceUnit

namespace Listing

/-- For every unit and each of its declarations: the name is found, and a line under it is read for
the entity of the declaration exactly if no other entity had the name first. None has, in a unit
that is built with redeclarations of known ids only, if one step introduces the name. -/
theorem name_read_back (u : SourceUnit) {d : Decl} (hd : d ∈ u.decls) :
    (∃ e ∈ u.decls, u.named? d.name = some e ∧ e.name = d.name ∧
      (e.identity = d.identity ↔ ¬u.Shadowed d) ∧
      ∀ (kind : ResultKind) (store : Store kind.Result) (number : Nat) (token : String)
        (result : kind.Result), Tokenized.ofToken? token = some result →
          loadLine u store ⟨number, d.name, token⟩ = .ok (store.assign e.identity result)) ∧
    ∀ steps, SourceUnit.build steps = .ok u → SourceUnit.Known steps →
      steps.countP (SourceUnit.Step.introduces d.name) ≤ 1 → ¬u.Shadowed d := by
  constructor
  · obtain ⟨e, he, hnamed⟩ := SourceUnit.exists_named hd
    have hname : e.name = d.name := (SourceUnit.named?_eq_some_iff.1 hnamed).1
    refine ⟨e, he, hnamed, hname, ?_, fun kind store number token result hread => ?_⟩
    · rw [SourceUnit.shadowed_iff_of_named hnamed, Decidable.not_not]
    · simp only [loadLine, hnamed, hread]
  · intro steps hbuild hknown honce
    exact SourceUnit.not_shadowed_of_build hbuild hknown hd honce

/-- A record and one redeclaration of it, among overloads that share another name. -/
def redeclaredSteps : List SourceUnit.Step :=
  [.function "pxr::operator==" .plain, .record "class pxr::Path" ⟨true, [], [], none⟩,
    .redeclare ⟨1⟩, .function "pxr::operator==" .plain]

def redeclaredPath : SourceUnit where
  decls := (SourceUnit.Builder.after redeclaredSteps).decls
  types := (SourceUnit.Builder.after redeclaredSteps).types
  wellFormed := WellFormed.fault?_eq_none_iff.1 (by decide)

theorem redeclaredPath_read_back :
    SourceUnit.build redeclaredSteps = .ok redeclaredPath ∧
      ∃ d ∈ redeclaredPath.decls, d.id = ⟨2⟩ ∧
        ∃ e ∈ redeclaredPath.decls, redeclaredPath.named? d.name = some e ∧
          e.identity = d.identity := by
  have hbuild : SourceUnit.build redeclaredSteps = .ok redeclaredPath :=
    SourceUnit.build_eq_ok_iff.2 ⟨rfl, rfl⟩
  have hknown : SourceUnit.Known redeclaredSteps := by
    have hequal := SourceUnit.known_nil.concat redeclaredSteps[0] fun earlier h => by cases h
    have hpath := hequal.concat redeclaredSteps[1] fun earlier h => by cases h
    have hagain := hpath.concat (.redeclare ⟨1⟩) fun earlier h => by cases h; decide
    exact hagain.concat redeclaredSteps[3] fun earlier h => by cases h
  have hd : redeclaredPath.decls[2] ∈ redeclaredPath.decls := List.getElem_mem _
  obtain ⟨⟨e, he, hnamed, _, hidentity, _⟩, hbuilt⟩ := name_read_back redeclaredPath hd
  have hvisible := hbuilt redeclaredSteps hbuild hknown (by decide)
  exact ⟨hbuild, _, hd, rfl, e, he, hnamed, hidentity.2 hvisible⟩

/-- A record that comes after the function that hides it. -/
def hiddenStat : SourceUnit where
  decls :=
    [⟨⟨0⟩, "pxr::Stat", none, true,
        .function ⟨none, [], .value "void", none, .unspecified, false, false, false⟩⟩,
      ⟨⟨1⟩, "pxr::Stat", none, true, .record ⟨"pxr::Stat", [], [], none⟩⟩]
  types := OrderedMap.ofList [("void", .builtin .void), ("pxr::Stat", .record ⟨1⟩)]
  wellFormed := WellFormed.fault?_eq_none_iff.1 (by decide)

/-- Its name is read for the function. -/
theorem hiddenStat_read_for_function :
    ∃ d ∈ hiddenStat.decls, d.record?.isSome = true ∧ d.identity = ⟨⟨1⟩⟩ ∧
      (hiddenStat.named? d.name).map (·.identity) = some ⟨⟨0⟩⟩ ∧
      ∃ store, loadLine hiddenStat .empty ⟨1, d.name, "importedAsValue"⟩ = .ok store ∧
        store.entries = [(⟨⟨0⟩⟩, ImportClass.value)] :=
  ⟨hiddenStat.decls[1], List.getElem_mem _, rfl, rfl, by decide, _, rfl, by decide⟩

end Listing

end InteropWitness

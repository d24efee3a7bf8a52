import InteropWitness.Listing
import InteropWitness.Proofs.OrderedMap.Content

namespace InteropWitness.Listing

def Line.place (line : Line) : Nat × String := (line.number, line.key)

def Failure.place : Failure → Nat × String
  | missingDeclaration line key => (line, key)
  | missingAnalysis line key => (line, key)
  | unparsable line key _ => (line, key)
  | mismatch line key _ _ => (line, key)

theorem number_of_readLine {number : Nat} {raw : List Char} {line : Line}
    (h : readLine number raw = .ok (some line)) : line.number = number := by
  unfold readLine at h
  split at h
  · cases h
  · cases h
    rfl
  · cases h

/-- Lines keep their order, and every line has its own number. -/
theorem numbers_of_readLines {raws : List (List Char)} {number : Nat} {lines : List Line}
    (h : readLines number raws = .ok lines) :
    lines.Pairwise (·.number < ·.number) ∧ ∀ line ∈ lines, number ≤ line.number := by
  induction raws generalizing number lines with
  | nil =>
    cases h
    exact ⟨.nil, List.forall_mem_nil _⟩
  | cons raw rest ih =>
    rw [readLines] at h
    cases hline : readLine number raw with
    | error m => rw [hline] at h; cases h
    | ok line? =>
      cases hrest : readLines (number + 1) rest with
      | error m => rw [hline, hrest] at h; cases h
      | ok later =>
        rw [hline, hrest] at h
        cases h
        obtain ⟨hincreasing, hlater⟩ := ih hrest
        have hle : ∀ line ∈ later, number ≤ line.number :=
          fun line hmem => Nat.le_of_lt (hlater line hmem)
        cases line? with
        | none => exact ⟨hincreasing, hle⟩
        | some line =>
          have hnumber := number_of_readLine hline
          refine ⟨List.pairwise_cons.2 ⟨?_, hincreasing⟩, List.forall_mem_cons.2 ⟨?_, hle⟩⟩
          · intro next hnext
            rw [hnumber]
            exact hlater next hnext
          · exact Nat.le_of_eq hnumber.symm

def entity? (u : SourceUnit) (line : Line) : Option Identity :=
  (u.named? line.key).map (·.identity)

variable {ρ : Type} [Tokenized ρ]

/-- What a line states: an entity and its result. -/
def stated? (u : SourceUnit) (line : Line) : Option (Identity × ρ) :=
  (entity? u line).bind fun entity => (Tokenized.ofToken? line.token).map (entity, ·)

/-- The store holds the result that a line expects, as far as the tokens tell. -/
def Holds (u : SourceUnit) (store : Store ρ) (line : Line) : Prop :=
  ∃ entity ∈ entity? u line, ∃ actual ∈ store.get? entity,
    ∃ expected ∈ (Tokenized.ofToken? line.token : Option ρ),
      Tokenized.token expected = Tokenized.token actual

instance (u : SourceUnit) (store : Store ρ) (line : Line) : Decidable (Holds u store line) :=
  inferInstanceAs (Decidable (∃ entity ∈ entity? u line, ∃ actual ∈ store.get? entity,
    ∃ expected ∈ (Tokenized.ofToken? line.token : Option ρ),
      Tokenized.token expected = Tokenized.token actual))

/-- All that is in the loaded store is in the store, as far as the tokens tell. -/
def Confirms (store loaded : Store ρ) : Prop :=
  ∀ entity result, loaded.get? entity = some result →
    ∃ actual, store.get? entity = some actual ∧ Tokenized.token actual = Tokenized.token result

variable {u : SourceUnit} {store : Store ρ} {line : Line}

theorem checkLine_eq_none_iff : checkLine u store line = none ↔ Holds u store line := by
  unfold checkLine Holds entity?
  cases u.named? line.key with
  | none => simp
  | some d =>
    simp only [Option.map_some, Option.mem_some_iff, exists_eq_left']
    cases store.get? d.identity with
    | none => simp
    | some actual =>
      simp only [Option.mem_some_iff, exists_eq_left']
      cases (Tokenized.ofToken? line.token : Option ρ) with
      | none => simp
      | some expected => simp

theorem stated?_eq_some_iff {e : Identity × ρ} :
    stated? u line = some e ↔
      entity? u line = some e.1 ∧ Tokenized.ofToken? line.token = some e.2 := by
  unfold stated?
  constructor
  · intro h
    obtain ⟨entity, hentity, hresult⟩ := Option.bind_eq_some_iff.1 h
    obtain ⟨result, hread, rfl⟩ := Option.map_eq_some_iff.1 hresult
    exact ⟨hentity, hread⟩
  · intro h
    rw [h.1, Option.bind_some, h.2]
    rfl

theorem holds_iff :
    Holds u store line ↔ ∃ e : Identity × ρ, stated? u line = some e ∧
      ∃ actual, store.get? e.1 = some actual ∧ Tokenized.token actual = Tokenized.token e.2 := by
  constructor
  · intro h
    obtain ⟨entity, hentity, actual, hactual, expected, hexpected, htoken⟩ := h
    have hstated : stated? u line = some (entity, expected) :=
      stated?_eq_some_iff.2 ⟨hentity, hexpected⟩
    exact ⟨(entity, expected), hstated, actual, hactual, htoken.symm⟩
  · intro h
    obtain ⟨e, he, actual, hactual, htoken⟩ := h
    obtain ⟨hentity, hexpected⟩ := stated?_eq_some_iff.1 he
    exact ⟨e.1, hentity, actual, hactual, e.2, hexpected, htoken.symm⟩

theorem place_of_checkLine {f : Failure} (h : checkLine u store line = some f) :
    f.place = line.place := by
  unfold checkLine at h
  repeat' split at h
  all_goals cases h
  all_goals rfl

/-- Every line that fails is reported once, in the order of the lines. -/
theorem places_of_failures (lines : List Line) :
    (lines.filterMap (checkLine u store)).map Failure.place =
      (lines.filter fun line => ¬Holds u store line).map Line.place := by
  induction lines with
  | nil => rfl
  | cons line rest ih =>
    cases hf : checkLine u store line with
    | none =>
      have hholds := checkLine_eq_none_iff.1 hf
      rw [List.filterMap_cons_none hf, List.filter_cons_of_neg (by simpa using hholds), ih]
    | some f =>
      have hfails : ¬Holds u store line := fun hholds => by
        rw [checkLine_eq_none_iff.2 hholds] at hf
        cases hf
      rw [List.filterMap_cons_some hf, List.filter_cons_of_pos (by simpa using hfails),
        List.map_cons, List.map_cons, ih, place_of_checkLine hf]

theorem loadLine_eq_ok_iff {loaded : Store ρ} :
    loadLine u store line = .ok loaded ↔
      ∃ e, stated? u line = some e ∧ store.assign e.1 e.2 = loaded := by
  unfold loadLine stated? entity?
  cases u.named? line.key with
  | none => simp
  | some d =>
    cases (Tokenized.ofToken? line.token : Option ρ) with
    | none => simp
    | some result => simp

/-- Loading takes up all that the lines state, and every line has to state something. -/
theorem loadLines_eq_ok_iff {lines : List Line} {loaded : Store ρ} :
    loadLines u store lines = .ok loaded ↔
      (∀ line ∈ lines, (stated? u line : Option (Identity × ρ)).isSome = true) ∧
        (lines.filterMap (stated? u)).foldl (fun m e => m.assign e.1 e.2) store = loaded := by
  induction lines generalizing store with
  | nil => simp [loadLines]
  | cons line rest ih =>
    rw [loadLines, List.forall_mem_cons]
    cases hstated : (stated? u line : Option (Identity × ρ)) with
    | none =>
      cases hload : loadLine u store line with
      | error e => simp
      | ok next =>
        obtain ⟨e, he, _⟩ := loadLine_eq_ok_iff.1 hload
        rw [hstated] at he
        cases he
    | some e =>
      rw [loadLine_eq_ok_iff.2 ⟨e, hstated, rfl⟩, List.filterMap_cons_some hstated, List.foldl_cons]
      simp only [ih, Option.isSome_some, true_and]

theorem nodup_stated {lines : List Line} (h : (lines.map (entity? u)).Nodup) :
    ((lines.filterMap (stated? u : Line → Option (Identity × ρ))).map Prod.fst).Nodup := by
  rw [List.Nodup, List.pairwise_map] at h ⊢
  refine h.filterMap _ fun first second hne e he e' he' heq => hne ?_
  rw [(stated?_eq_some_iff.1 he).1, (stated?_eq_some_iff.1 he').1, heq]

/-- Whatever the store, what is loaded of a listing without failures is confirmed. -/
theorem confirms_of_holds {lines : List Line} (h : ∀ line ∈ lines, Holds u store line) :
    ∃ loaded : Store ρ, loadLines u .empty lines = .ok loaded ∧ Confirms store loaded := by
  have hstated : ∀ line ∈ lines, ∃ e : Identity × ρ, stated? u line = some e ∧
      ∃ actual, store.get? e.1 = some actual ∧ Tokenized.token actual = Tokenized.token e.2 :=
    fun line hline => holds_iff.1 (h line hline)
  refine ⟨.ofList (lines.filterMap (stated? u)), loadLines_eq_ok_iff.2 ⟨?_, rfl⟩, ?_⟩
  · intro line hline
    obtain ⟨e, he, _⟩ := hstated line hline
    rw [he]
    rfl
  · intro entity result hget
    obtain ⟨line, hline, he⟩ := List.mem_filterMap.1 (OrderedMap.mem_of_get?_ofList hget)
    obtain ⟨e, he', hactual⟩ := hstated line hline
    rw [he] at he'
    cases he'
    exact hactual

/-- No entry is lost where all the lines are about different entities. -/
theorem holds_of_confirms {lines : List Line} (hdistinct : (lines.map (entity? u)).Nodup)
    {loaded : Store ρ} (hload : loadLines u .empty lines = .ok loaded)
    (hconfirms : Confirms store loaded) : ∀ line ∈ lines, Holds u store line := by
  obtain ⟨hstated, rfl⟩ := loadLines_eq_ok_iff.1 hload
  intro line hline
  obtain ⟨e, he⟩ := Option.isSome_iff_exists.1 (hstated line hline)
  have hmem : e ∈ lines.filterMap (stated? u) := List.mem_filterMap.2 ⟨line, hline, he⟩
  have hnd : ((lines.filterMap (stated? u : Line → Option (Identity × ρ))).map Prod.fst).Nodup :=
    nodup_stated hdistinct
  exact holds_iff.2 ⟨e, he, hconfirms e.1 e.2 (OrderedMap.get?_ofList hnd hmem)⟩

theorem check_of_parse {text : String} {lines : List Line} (h : parse text = .ok lines) :
    check u store text = .ok ⟨lines.length, lines.filterMap (checkLine u store)⟩ := by
  rw [check, linesOf, h]
  rfl

theorem load_of_parse {text : String} {lines : List Line} (h : parse text = .ok lines) :
    load u text = loadLines u (.empty : Store ρ) lines := by
  rw [load, linesOf, h]
  rfl

theorem check_eq_error_iff {text : String} {e : ListingError} :
    check u store text = .error e ↔ ∃ m, parse text = .error m ∧ e = .malformed m := by
  cases hparse : parse text with
  | error m =>
    have hcheck : check u store text = .error (.malformed m) := by
      rw [check, linesOf, hparse]
      rfl
    rw [hcheck]
    simp [eq_comm]
  | ok lines =>
    rw [check_of_parse hparse]
    simp

theorem isClean_iff {lines : List Line} :
    (Report.mk lines.length (lines.filterMap (checkLine u store))).isClean = true ↔
      ∀ line ∈ lines, Holds u store line := by
  rw [Report.isClean, List.isEmpty_iff, List.filterMap_eq_nil_iff]
  simp only [checkLine_eq_none_iff]

/-- Checking fails on the texts that are not read, and for the same reason. Every line of a text
that is read is counted, and every line that the store does not hold is reported once, in the order
of the text. If there is none, the text loads and the store confirms what was loaded. If the text
loads, no two lines are about one entity and the store confirms what was loaded, there is none. -/
theorem check_agrees_with_load {ρ : Type} [Tokenized ρ] (u : SourceUnit) (store : Store ρ)
    (text : String) :
    (∀ e, check u store text = .error e ↔ ∃ m, parse text = .error m ∧ e = .malformed m) ∧
    ∀ lines, parse text = .ok lines →
      ∃ report, check u store text = .ok report ∧
        report.checked = lines.length ∧
        lines.Pairwise (·.number < ·.number) ∧
        report.failures.map Failure.place =
          (lines.filter fun line => ¬Holds u store line).map Line.place ∧
        (report.isClean = true → ∃ loaded, load u text = .ok loaded ∧ Confirms store loaded) ∧
        ((lines.map (entity? u)).Nodup → ∀ loaded, load u text = .ok loaded →
          Confirms store loaded → report.isClean = true) := by
  refine ⟨fun e => check_eq_error_iff, fun lines hparse => ?_⟩
  refine ⟨_, check_of_parse hparse, rfl, (numbers_of_readLines hparse).1,
    places_of_failures lines, ?_, ?_⟩
  · intro hclean
    rw [load_of_parse hparse]
    exact confirms_of_holds (isClean_iff.1 hclean)
  · intro hdistinct loaded hload hconfirms
    rw [load_of_parse hparse] at hload
    exact isClean_iff.2 (holds_of_confirms hdistinct hload hconfirms)

def survey : SourceUnit where
  decls :=
    [⟨⟨0⟩, "pxr::Stage", none, true, .record ⟨"pxr::Stage", [], [], none⟩⟩,
      ⟨⟨1⟩, "pxr::Layer", none, true, .record ⟨"pxr::Layer", [], [], none⟩⟩]
  types := OrderedMap.ofList [("pxr::Stage", .record ⟨0⟩), ("pxr::Layer", .record ⟨1⟩)]
  wellFormed := WellFormed.fault?_eq_none_iff.1 (by decide)

def surveyResults : Store StringVerdict :=
  OrderedMap.ofList [(⟨⟨0⟩⟩, .streamed), (⟨⟨1⟩⟩, .noCandidate)]

def surveyText : String :=
  "// survey\npxr::Layer; blockedByNoCandidate;\n\npxr::Stage; available; // last\n"

def surveyLines : List Line :=
  [⟨2, "pxr::Layer", "blockedByNoCandidate"⟩, ⟨4, "pxr::Stage", "available"⟩]

theorem survey_is_checked_and_loads :
    parse surveyText = .ok surveyLines ∧ (surveyLines.map (entity? survey)).Nodup ∧
      (∃ report, check survey surveyResults surveyText = .ok report ∧ report.checked = 2 ∧
        report.isClean = true) ∧
      (∃ loaded, load survey surveyText = .ok loaded ∧ Confirms surveyResults loaded) ∧
      check survey surveyResults "pxr::Stage available;" = .error (.malformed ⟨1, 1⟩) := by
  have hparse : parse surveyText = .ok surveyLines := by decide +kernel
  have hdistinct : (surveyLines.map (entity? survey)).Nodup := by decide
  have hcheck : check survey surveyResults surveyText = .ok ⟨2, []⟩ := by decide +kernel
  obtain ⟨report, hreport, hcount, _, _, hloads, hclean⟩ :=
    (check_agrees_with_load survey surveyResults surveyText).2 surveyLines hparse
  have hempty : report.isClean = true := by
    rw [hcheck] at hreport
    cases hreport
    rfl
  obtain ⟨loaded, hload, hconfirms⟩ := hloads hempty
  refine ⟨hparse, hdistinct, ⟨report, hreport, hcount, ?_⟩, ⟨loaded, hload, hconfirms⟩, ?_⟩
  · exact hclean hdistinct loaded hload hconfirms
  · exact ((check_agrees_with_load survey surveyResults _).1 _).2 ⟨⟨1, 1⟩, by decide +kernel, rfl⟩

/-- Of two lines for one entity both are checked and the later one is loaded. -/
example :
    check survey surveyResults "pxr::Stage; unknown;\npxr::Stage; available;\n" =
        .ok ⟨2, [.mismatch 1 "pxr::Stage" "unknown" "available"]⟩ ∧
      (load survey "pxr::Stage; unknown;\npxr::Stage; available;\n").map (·.entries) =
        .ok [(⟨⟨0⟩⟩, StringVerdict.streamed)] := by
  decide +kernel

end InteropWitness.Listing

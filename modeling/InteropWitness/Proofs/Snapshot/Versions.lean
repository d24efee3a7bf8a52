import InteropWitness.Proofs.Listing.Respelling
import InteropWitness.Proofs.Listing.RoundTrip
import InteropWitness.Proofs.Namespace
import InteropWitness.Snapshot.Diff

namespace InteropWitness.Snapshot

open Listing

theorem map_numbered (number : Nat) (fields : List (String × String)) :
    (numbered number fields).map (fun line => (line.key, line.token)) = fields := by
  induction fields generalizing number with
  | nil => rfl
  | cons e rest ih => rw [numbered, List.map_cons, ih]

theorem ofListing_written {ρ : Type} [Tokenized ρ] {u : SourceUnit} {entries : List (Identity × ρ)}
    (h : ∀ e ∈ entries, Plain (nameOf u e.1) ∧ Plain (Tokenized.token e.2)) :
    ofListing (String.join ((entries.map (written u)).map fun e => write e.1 e.2)) =
      .ok (ofTokens (entries.map (written u))) := by
  rw [ofListing, parse_written h, Except.map, map_numbered]

/-- For every kind of results, every unit and every store: if the unit has no declaration for one of
the keys, rendering the store and taking its snapshot fail with the first such key. Otherwise, if a
listing can hold the names and tokens, the snapshot of what is rendered is the one of the store:
both take up the names and tokens in the order of the store, whatever names the entries share. -/
theorem snapshots_agree (kind : ResultKind) (u : SourceUnit) (store : Store kind.Result) :
    ((∃ entity ∈ store.keys, u.defining? entity = none) →
      ∃ first, unresolved? u store = some first ∧
        render u store = .error (.unresolvedKey first.decl) ∧
        ofStore u store = .error (.unresolvedKey first.decl)) ∧
    ((∀ entity ∈ store.keys, u.defining? entity ≠ none) →
      (∀ e ∈ store.entries, Plain (nameOf u e.1) ∧ Plain (Tokenized.token e.2)) →
        ∃ text, render u store = .ok text ∧
          ofListing text = .ok (ofTokens (store.entries.map (written u))) ∧
          ofStore u store = .ok (ofTokens (store.entries.map (written u)))) := by
  constructor
  · intro h
    obtain ⟨entity, hmem, hnone⟩ := h
    have hsome : (unresolved? u store).isSome = true :=
      List.find?_isSome.2 ⟨entity, hmem, by rw [hnone]; rfl⟩
    obtain ⟨first, hfirst⟩ := Option.isSome_iff_exists.1 hsome
    refine ⟨first, hfirst, ?_, ?_⟩
    · rw [render, namedTokens_of_unresolved hfirst]
      rfl
    · rw [ofStore, namedTokens_of_unresolved hfirst]
      rfl
  · intro h hplain
    have hdefined : ∀ e ∈ store.entries, (u.defining? e.1).isSome = true := fun e he =>
      Option.isSome_iff_ne_none.2 (h e.1 (List.mem_map_of_mem he))
    exact ⟨_, render_of_resolved hdefined, ofListing_written hplain,
      ofStore_of_resolved hdefined⟩

/-- Two declarations whose names fold to one, around a third. -/
def versionedPaths : SourceUnit where
  decls :=
    [⟨⟨0⟩, "class {ns}::Path", none, true, .other⟩,
      ⟨⟨1⟩, "class {ns}::Join<';'>", none, true, .other⟩,
      ⟨⟨2⟩, "class pxrInternal_v0_25__pxrReserved__::Path", none, true, .other⟩]
  types := .empty
  wellFormed := WellFormed.fault?_eq_none_iff.1 (by decide)

def versionedResults : Store (ResultKind.Result .relation) :=
  OrderedMap.ofList [(⟨⟨0⟩⟩, RelationVerdict.unavailable), (⟨⟨1⟩⟩, RelationVerdict.nonCopyable),
    (⟨⟨2⟩⟩, RelationVerdict.differentTypes "class pxrInternal_v0_25__pxrReserved__::Path" "int")]

/-- Both ways the later of the two wins, in the place of the first. -/
theorem versionedResults_agree :
    (∀ entity ∈ versionedResults.keys, versionedPaths.defining? entity ≠ none) ∧
      (∀ e ∈ versionedResults.entries,
        Plain (nameOf versionedPaths e.1) ∧ Plain (Tokenized.token e.2)) ∧
      ∃ text s, render versionedPaths versionedResults = .ok text ∧ ofListing text = .ok s ∧
        s.entries.entries =
          [("class {ns}::Path", "[availableDifferentArgumentTypes,, class {ns}::Path,, int]"),
            ("class {ns}::Join<';'>", "noAnalysisBecauseNonCopyable")] := by
  have hresolved : ∀ entity ∈ versionedResults.keys, versionedPaths.defining? entity ≠ none := by
    decide
  have hplain : ∀ e ∈ versionedResults.entries,
      Plain (nameOf versionedPaths e.1) ∧ Plain (Tokenized.token e.2) := by decide +kernel
  obtain ⟨text, htext, hlisting, hstore⟩ :=
    (snapshots_agree .relation versionedPaths versionedResults).2 hresolved hplain
  have hentries : (ofStore versionedPaths versionedResults).toOption.map (·.entries.entries) =
      some [("class {ns}::Path", "[availableDifferentArgumentTypes,, class {ns}::Path,, int]"),
        ("class {ns}::Join<';'>", "noAnalysisBecauseNonCopyable")] := by decide +kernel
  rw [hstore] at hentries
  exact ⟨hresolved, hplain, text, _, htext, hlisting, Option.some.inj hentries⟩

end InteropWitness.Snapshot

namespace InteropWitness

open Namespace

theorem isMark_of_isVersionChar {c : Char} (h : isVersionChar c = true) :
    Listing.isMark c = false := by
  rcases Bool.or_eq_true_iff.1 h with hdigit | hunderscore
  · have hrange : 48 ≤ c.toNat ∧ c.toNat ≤ 57 := by
      simpa [Char.isDigit, UInt32.le_iff_toNat_le] using hdigit
    have hblank : Text.isBlank c = false := by
      simp [Text.isBlank]
      omega
    have hne : ∀ d : Char, d.toNat < 48 ∨ 57 < d.toNat → decide (c = d) = false := by
      intro d hd
      rw [decide_eq_false_iff_not]
      rintro rfl
      omega
    rw [Listing.isMark, hblank, hne '/' (by decide), hne ';' (by decide), hne '\'' (by decide)]
    rfl
  · rw [of_decide_eq_true hunderscore]
    decide

theorem free_of_versions {v w : List Char} (h : Versions v w) :
    Text.Free Listing.isMark v ∧ Text.Free Listing.isMark w := by
  obtain ⟨rfl, version, hversion, rfl⟩ := h
  rw [toList_versioned]
  have hunmarked : ∀ word : List Char, (word.all fun c => !Listing.isMark c) = true →
      ∀ c ∈ word, Listing.isMark c = false :=
    fun word hall c hc => by simpa using List.all_eq_true.1 hall c hc
  have hopening := hunmarked opening.toList (by decide)
  have hclosing := hunmarked closing.toList (by decide)
  refine ⟨⟨by decide, hunmarked placeholder.toList (by decide)⟩,
    ⟨List.cons_ne_nil _ _, fun c hc => ?_⟩⟩
  rcases List.mem_append.1 hc with hc | hc
  · exact hopening c hc
  · rcases List.mem_append.1 hc with hc | hc
    · exact isMark_of_isVersionChar (hversion.2 c hc)
    · exact hclosing c hc

namespace Snapshot

/-- A snapshot takes nothing from the lines but what they fold to. -/
theorem ofListing_eq_map (text : String) :
    ofListing text = ((Listing.parse text).map (List.map (Listing.Line.shown foldVersions))).map
      fun lines => ⟨OrderedMap.ofList (lines.map Prod.snd)⟩ := by
  rw [ofListing]
  cases Listing.parse text with
  | error e => rfl
  | ok lines =>
    simp only [Except.map, ofTokens, List.map_map]
    rfl

theorem ofListing_expand {version : String} (h : IsVersion version) (text : String) :
    ofListing (expand text (versioned version)) = ofListing text := by
  have hview : ∀ s t, Text.Respelled Versions s t →
      foldVersions (.ofList s) = foldVersions (.ofList t) := by
    intro s t hst
    rw [foldVersions, foldVersions, String.toList_ofList, String.toList_ofList,
      foldAfter_respelled hst]
  rw [ofListing_eq_map, ofListing_eq_map]
  rw [Listing.parse_respelled (fun _ _ => free_of_versions) hview (respelled_expand h text)]

theorem get?_expand {version : String} (h : IsVersion version) (s : Snapshot) (name : String) :
    s.get? (expand name (versioned version)) = s.get? name := by
  rw [get?, foldVersions_expand h, get?]

end Snapshot

theorem Diff.between_self (s : Snapshot) : between s s = ⟨[], [], [], s.entries.size⟩ := by
  have hhas : ∀ e ∈ s.entries.entries, s.entries.get? e.1 = some e.2 :=
    fun e he => OrderedMap.get?_eq_some_iff.2 he
  have hcontains : ∀ e ∈ s.entries.entries, (!s.entries.contains e.1) = false := by
    intro e he
    simp [OrderedMap.contains, hhas e he]
  have hadded : (between s s).added = [] :=
    List.filter_eq_nil_iff.2 fun e he => Bool.eq_false_iff.1 (hcontains e he)
  have hremoved : (between s s).removed = [] := hadded
  have hchanged : (between s s).changed = [] := by
    apply List.filterMap_eq_nil_iff.2
    intro e he
    simp [hhas e he]
  have hunchanged : (between s s).unchanged = s.entries.size := by
    apply congrArg List.length
    apply List.filter_eq_self.2
    intro e he
    simp [hhas e he]
  change Diff.mk (between s s).added (between s s).removed (between s s).changed
    (between s s).unchanged = _
  rw [hadded, hremoved, hchanged, hunchanged]

namespace Snapshot

/-- For every listing and every version: the listing and its expansion have the same snapshot, with
its entries in the same order, or the same malformed line. So nothing differs between the expansions
for two versions, and a snapshot gives one answer for a name with a placeholder and for the name
with the namespace of either version. -/
theorem listings_line_up {version : String} (h : IsVersion version) (text : String) :
    ofListing (expand text (versioned version)) = ofListing text ∧
      ∀ other, IsVersion other →
        (∀ old new, ofListing (expand text (versioned version)) = .ok old →
          ofListing (expand text (versioned other)) = .ok new →
            (Diff.between old new).isEmpty = true) ∧
        ∀ (s : Snapshot) (name : String),
          s.get? (expand name (versioned version)) = s.get? name ∧
            s.get? (expand name (versioned other)) = s.get? name := by
  refine ⟨ofListing_expand h text, fun other hother => ⟨?_, fun s name => ?_⟩⟩
  · intro old new hold hnew
    rw [ofListing_expand h] at hold
    rw [ofListing_expand hother, hold] at hnew
    rw [← Except.ok.inj hnew, Diff.between_self]
    rfl
  · exact ⟨get?_expand h s name, get?_expand hother s name⟩

/-- Half a namespace before a placeholder, digits and a closing behind one, a quoted semicolon and a
comment. -/
def entangled : String :=
  "class pxrInternal_v{ns}__pxrReserved__::Path; {ns}1__pxrReserved__; // {ns}; {ns}\n" ++
    "{ns}';'{ns}; [pxrInternal_v1_{ns},, {n{ns}s}];\n"

theorem entangled_lines_up :
    IsVersion "0_25_5" ∧ IsVersion "_" ∧
      ofListing (expand entangled (versioned "0_25_5")) = ofListing entangled ∧
      ∃ old new, ofListing (expand entangled (versioned "0_25_5")) = .ok old ∧
        ofListing (expand entangled (versioned "_")) = .ok new ∧ old.entries.size = 2 ∧
          (Diff.between old new).isEmpty = true := by
  have hversion : IsVersion "0_25_5" := by decide
  have hother : IsVersion "_" := by decide
  obtain ⟨hsame, hothers⟩ := listings_line_up hversion entangled
  have hread : (ofListing entangled).toOption.map (·.entries.size) = some 2 := by decide +kernel
  obtain ⟨s, hs, hsize⟩ : ∃ s, ofListing entangled = .ok s ∧ s.entries.size = 2 := by
    cases hlisting : ofListing entangled with
    | error e => simp [hlisting, Except.toOption] at hread
    | ok s => exact ⟨s, rfl, by simpa [hlisting, Except.toOption] using hread⟩
  have hnew : ofListing (expand entangled (versioned "_")) = .ok s :=
    (listings_line_up hother entangled).1.trans hs
  exact ⟨hversion, hother, hsame, s, s, hsame.trans hs, hnew, hsize,
    (hothers "_" hother).1 s s (hsame.trans hs) hnew⟩

end Snapshot

end InteropWitness

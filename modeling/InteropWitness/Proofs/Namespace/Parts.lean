import InteropWitness.Proofs.Namespace
import Mathlib.Logic.ExistsUnique

namespace InteropWitness.Namespace

open Text

/-- The namespace of the version stands in the text, between `before` and `after`. -/
structure Stands (version : String) (before after text : List Char) : Prop where
  isVersion : IsVersion version
  spelled : before ++ ((versioned version).toList ++ after) = text

/-- A character of a text, or the namespace of a version. -/
inductive Part where
  | char (c : Char)
  | ofVersion (version : String)

namespace Part

def spelled : Part → List Char
  | char c => [c]
  | ofVersion version => (versioned version).toList

def folded : Part → List Char
  | char c => [c]
  | ofVersion _ => placeholder.toList

end Part

/-- The parts spell the text, and wherever a versioned namespace stands in it, it is one of them. -/
structure Splits (parts : List Part) (text : List Char) : Prop where
  spelled : parts.flatMap Part.spelled = text
  isVersion : ∀ version, .ofVersion version ∈ parts → IsVersion version
  every : ∀ version before after, Stands version before after text →
    ∃ left right, parts = left ++ .ofVersion version :: right ∧
      left.flatMap Part.spelled = before ∧ right.flatMap Part.spelled = after

theorem Part.spelled_ne_nil (part : Part) : part.spelled ≠ [] := by
  cases part with
  | char c => exact List.cons_ne_nil c []
  | ofVersion version => exact versioned_ne_nil version

theorem versioned_append_inj {v w : String} (hv : IsVersion v) (hw : IsVersion w)
    {s t : List Char} (h : (versioned v).toList ++ s = (versioned w).toList ++ t) :
    v = w ∧ s = t := by
  have hlength : some (versioned v).toList.length = some (versioned w).toList.length := by
    rw [← versionedLength?_versioned hv s, h, versionedLength?_versioned hw t]
  obtain ⟨hsame, hrest⟩ := List.append_inj h (Option.some.inj hlength)
  rw [toList_versioned, toList_versioned] at hsame
  have hversion : v.toList = w.toList :=
    List.append_cancel_right (List.append_cancel_left hsame)
  exact ⟨String.toList_inj.1 hversion, hrest⟩

/-- A versioned namespace ends before another one starts: a placeholder in the place of the second
would otherwise be a part of the first. -/
theorem exists_between {v w : String} (hv : IsVersion v) (hw : IsVersion w) {c : Char}
    {before rest after : List Char}
    (h : (versioned v).toList ++ rest = c :: before ++ ((versioned w).toList ++ after)) :
    ∃ between, c :: before = (versioned v).toList ++ between ∧
      rest = between ++ ((versioned w).toList ++ after) := by
  obtain ⟨d, tail, htail⟩ := List.exists_cons_of_ne_nil (versioned_ne_nil v)
  have hresists : Resists tail := by
    have hall := resists_tail hv
    rwa [htail] at hall
  have hbrace : '\x7b' ∉ tail := by
    have hall : '\x7b' ∉ (versioned v).toList := not_mem_versioned hv (by decide)
    rw [htail, List.mem_cons, not_or] at hall
    exact hall.2
  rw [htail, List.cons_append, List.cons_append] at h
  obtain ⟨rfl, hrest⟩ := List.cons.inj h
  have hswapped : Respelled Versions (before ++ (placeholder.toList ++ after)) (tail ++ rest) := by
    rw [hrest]
    exact (Respelled.refl before).append (.word ⟨rfl, w, hw, rfl⟩ (.refl after))
  obtain ⟨s, hs, _⟩ := hresists _ _ hswapped
  have hcover : tail <+: before := by
    rcases List.append_eq_append_iff.1 hs with
      ⟨inside, hinside, hplaceholder⟩ | ⟨between, hbefore, _⟩
    · cases inside with
      | nil =>
        rw [List.append_nil] at hinside
        exact hinside ▸ List.prefix_rfl
      | cons b inside =>
        have hb : b = '\x7b' := (List.cons.inj hplaceholder).1.symm
        exact absurd (by simp [hinside, hb]) hbrace
    · exact ⟨between, hbefore.symm⟩
  obtain ⟨between, rfl⟩ := hcover
  rw [List.append_assoc] at hrest
  exact ⟨between, by rw [htail, List.cons_append], List.append_cancel_left hrest⟩

theorem Stands.first_or_behind {v w : String} {before after rest : List Char} (hv : IsVersion v)
    (h : Stands w before after ((versioned v).toList ++ rest)) :
    (v = w ∧ before = [] ∧ after = rest) ∨
      ∃ between, before = (versioned v).toList ++ between ∧ Stands w between after rest := by
  cases before with
  | nil =>
    obtain ⟨rfl, rfl⟩ := versioned_append_inj h.isVersion hv h.spelled
    exact Or.inl ⟨rfl, rfl, rfl⟩
  | cons c before =>
    obtain ⟨between, hbefore, hrest⟩ := exists_between hv h.isVersion h.spelled.symm
    exact Or.inr ⟨between, hbefore, h.isVersion, hrest.symm⟩

/-- Of two versioned namespaces in a text, one ends before the other one starts. -/
theorem Stands.eq_or_apart {v w : String} {before before' after after' text : List Char}
    (h : Stands v before after text) (h' : Stands w before' after' text)
    (hfirst : before.length ≤ before'.length) :
    (v = w ∧ before = before') ∨
      before.length + (versioned v).toList.length ≤ before'.length := by
  have hboth := h.spelled.trans h'.spelled.symm
  have hprefix : before <+: before' := by
    have hstarts := List.prefix_append before ((versioned v).toList ++ after)
    rw [hboth] at hstarts
    exact List.prefix_of_prefix_length_le hstarts (List.prefix_append before' _) hfirst
  obtain ⟨skipped, rfl⟩ := hprefix
  rw [List.append_assoc] at hboth
  have hstands : Stands w skipped after' ((versioned v).toList ++ after) :=
    ⟨h'.isVersion, (List.append_cancel_left hboth).symm⟩
  rcases hstands.first_or_behind h.isVersion with ⟨hsame, hnone, _⟩ | ⟨between, hskipped, _⟩
  · exact Or.inl ⟨hsame, by rw [hnone, List.append_nil]⟩
  · rw [hskipped, List.length_append, List.length_append]
    omega

/-- A text is empty, or starts with a versioned namespace, or with a character where none starts. -/
@[elab_as_elim]
theorem induction_on_parts {motive : List Char → Prop} (nil : motive [])
    (ofVersion : ∀ version rest, IsVersion version → motive rest →
      motive ((versioned version).toList ++ rest))
    (char : ∀ c rest, (∀ version after, ¬Stands version [] after (c :: rest)) → motive rest →
      motive (c :: rest))
    (text : List Char) : motive text := by
  induction hlength : text.length using Nat.strongRecOn generalizing text with
  | ind n ih =>
    cases text with
    | nil => exact nil
    | cons c rest =>
      by_cases hstarts : ∃ version after, Stands version [] after (c :: rest)
      · obtain ⟨version, after, hversion, hspelled⟩ := hstarts
        rw [List.nil_append] at hspelled
        have hpos := List.length_pos_iff.2 (versioned_ne_nil version)
        rw [← hspelled]
        refine ofVersion version after hversion (ih after.length ?_ after rfl)
        rw [← hlength, ← hspelled, List.length_append]
        omega
      · simp only [not_exists] at hstarts
        refine char c rest hstarts (ih rest.length ?_ rest rfl)
        rw [← hlength, List.length_cons]
        omega

section Splits

variable {parts : List Part} {rest : List Char}

theorem splits_nil_iff : Splits parts [] ↔ parts = [] := by
  constructor
  · intro h
    cases parts with
    | nil => rfl
    | cons part parts => exact absurd (List.append_eq_nil_iff.1 h.spelled).1 part.spelled_ne_nil
  · rintro rfl
    refine ⟨rfl, fun _ hmem => absurd hmem List.not_mem_nil, fun version before after h => ?_⟩
    exact absurd (List.append_eq_nil_iff.1 (List.append_eq_nil_iff.1 h.spelled).2).1
      (versioned_ne_nil version)

theorem Splits.cons {part : Part} (h : Splits parts rest)
    (hpart : ∀ version, part = .ofVersion version → IsVersion version)
    (hstands : ∀ version before after, Stands version before after (part.spelled ++ rest) →
      (part = .ofVersion version ∧ before = [] ∧ after = rest) ∨
        ∃ between, before = part.spelled ++ between ∧ Stands version between after rest) :
    Splits (part :: parts) (part.spelled ++ rest) where
  spelled := by rw [List.flatMap_cons, h.spelled]
  isVersion := by
    intro version hmem
    rcases List.mem_cons.1 hmem with hsame | hlater
    · exact hpart version hsame.symm
    · exact h.isVersion version hlater
  every := by
    intro version before after hin
    rcases hstands version before after hin with ⟨rfl, rfl, rfl⟩ | ⟨between, rfl, hbehind⟩
    · exact ⟨[], parts, rfl, rfl, h.spelled⟩
    · obtain ⟨left, right, rfl, hleft, hright⟩ := h.every version between after hbehind
      refine ⟨part :: left, right, rfl, ?_, hright⟩
      rw [List.flatMap_cons, hleft]

theorem Splits.tail {part : Part} (h : Splits (part :: parts) (part.spelled ++ rest)) :
    Splits parts rest where
  spelled := List.append_cancel_left (List.flatMap_cons.symm.trans h.spelled)
  isVersion version hmem := h.isVersion version (List.mem_cons_of_mem part hmem)
  every := by
    intro version before after hstands
    have hlater : Stands version (part.spelled ++ before) after (part.spelled ++ rest) :=
      ⟨hstands.isVersion, by rw [List.append_assoc, hstands.spelled]⟩
    obtain ⟨left, right, hparts, hbefore, hafter⟩ := h.every _ _ _ hlater
    cases left with
    | nil => exact absurd (List.append_eq_nil_iff.1 hbefore.symm).1 part.spelled_ne_nil
    | cons first left =>
      obtain ⟨rfl, rfl⟩ := List.cons.inj hparts
      rw [List.flatMap_cons] at hbefore
      exact ⟨left, right, rfl, List.append_cancel_left hbefore, hafter⟩

theorem splits_version_iff {version : String} (hversion : IsVersion version) :
    Splits parts ((versioned version).toList ++ rest) ↔
      ∃ tail, parts = .ofVersion version :: tail ∧ Splits tail rest := by
  constructor
  · intro h
    obtain ⟨left, right, rfl, hbefore, _⟩ := h.every version [] rest ⟨hversion, rfl⟩
    cases left with
    | nil => exact ⟨right, rfl, h.tail⟩
    | cons first left =>
      exact absurd (List.append_eq_nil_iff.1 hbefore).1 first.spelled_ne_nil
  · rintro ⟨tail, rfl, h⟩
    refine h.cons ?_ fun other before after hstands => ?_
    · rintro other ⟨⟩
      exact hversion
    · rcases hstands.first_or_behind hversion with ⟨rfl, hbefore, hafter⟩ | hbehind
      · exact Or.inl ⟨rfl, hbefore, hafter⟩
      · exact Or.inr hbehind

theorem splits_char_iff {c : Char} (hnone : ∀ version after, ¬Stands version [] after (c :: rest)) :
    Splits parts (c :: rest) ↔ ∃ tail, parts = .char c :: tail ∧ Splits tail rest := by
  constructor
  · intro h
    have hspelled := h.spelled
    cases parts with
    | nil => cases hspelled
    | cons part tail =>
      cases part with
      | char d =>
        obtain ⟨rfl, _⟩ := List.cons.inj hspelled
        exact ⟨tail, rfl, h.tail⟩
      | ofVersion version =>
        have hversion := h.isVersion version List.mem_cons_self
        exact absurd ⟨hversion, hspelled⟩ (hnone version (tail.flatMap Part.spelled))
  · rintro ⟨tail, rfl, h⟩
    refine h.cons (fun _ hpart => nomatch hpart) fun version before after hstands => Or.inr ?_
    cases before with
    | nil => exact absurd hstands (hnone version after)
    | cons d before =>
      obtain ⟨rfl, hrest⟩ := List.cons.inj hstands.spelled
      exact ⟨before, rfl, hstands.isVersion, hrest⟩

end Splits

theorem existsUnique_splits (text : List Char) : ∃! parts, Splits parts text := by
  induction text using induction_on_parts with
  | nil => exact ⟨[], splits_nil_iff.2 rfl, fun _ h => splits_nil_iff.1 h⟩
  | ofVersion version rest hversion ih =>
    obtain ⟨tail, htail, hunique⟩ := ih
    refine ⟨.ofVersion version :: tail, (splits_version_iff hversion).2 ⟨tail, rfl, htail⟩, ?_⟩
    intro parts hparts
    obtain ⟨tail', rfl, htail'⟩ := (splits_version_iff hversion).1 hparts
    rw [hunique tail' htail']
  | char c rest hnone ih =>
    obtain ⟨tail, htail, hunique⟩ := ih
    refine ⟨.char c :: tail, (splits_char_iff hnone).2 ⟨tail, rfl, htail⟩, ?_⟩
    intro parts hparts
    obtain ⟨tail', rfl, htail'⟩ := (splits_char_iff hnone).1 hparts
    rw [hunique tail' htail']

theorem foldAfter_of_not_stands {c : Char} {rest : List Char}
    (hnone : ∀ version after, ¬Stands version [] after (c :: rest)) :
    foldAfter 0 (c :: rest) = c :: foldAfter 0 rest :=
  foldAfter_cons fun version after hversion heq => hnone version after ⟨hversion, heq.symm⟩

theorem foldAfter_of_splits {parts : List Part} {text : List Char} (h : Splits parts text) :
    foldAfter 0 text = parts.flatMap Part.folded := by
  induction text using induction_on_parts generalizing parts with
  | nil =>
    rw [splits_nil_iff.1 h]
    rfl
  | ofVersion version rest hversion ih =>
    obtain ⟨tail, rfl, htail⟩ := (splits_version_iff hversion).1 h
    rw [foldAfter_versioned hversion, ih htail]
    rfl
  | char c rest hnone ih =>
    obtain ⟨tail, rfl, htail⟩ := (splits_char_iff hnone).1 h
    rw [foldAfter_of_not_stands hnone, ih htail]
    rfl

theorem respelled_foldAfter (text : List Char) : Respelled Versions (foldAfter 0 text) text := by
  induction text using induction_on_parts with
  | nil => exact .nil
  | ofVersion version rest hversion ih =>
    rw [foldAfter_versioned hversion]
    exact .word ⟨rfl, version, hversion, rfl⟩ ih
  | char c rest hnone ih =>
    rw [foldAfter_of_not_stands hnone]
    exact .char c ih

/-- Folding makes no versioned namespace: what it puts in starts with a brace and ends with one. -/
theorem not_infix_foldAfter {version : String} (h : IsVersion version) (text : List Char) :
    ¬(versioned version).toList <:+: foldAfter 0 text := by
  induction text using induction_on_parts with
  | nil => exact fun hoccurs => versioned_ne_nil version (List.infix_nil.1 hoccurs)
  | ofVersion other rest hother ih =>
    have hclosing : '\x7d' ∉ (versioned version).toList := not_mem_versioned h (by decide)
    have hshort : ¬(versioned version).toList <:+: "\x7bns".toList := by
      intro hoccurs
      have hmem : 'p' ∈ "\x7bns".toList := by
        refine hoccurs.subset ?_
        rw [toList_versioned]
        exact List.mem_append_left _ (by decide)
      exact absurd hmem (by decide)
    rw [foldAfter_versioned hother]
    exact not_infix_append_cons hclosing hshort ih
  | char c rest hnone ih =>
    rw [foldAfter_of_not_stands hnone, List.infix_cons_iff, not_or]
    refine ⟨?_, ih⟩
    rintro ⟨after, hafter⟩
    have hwhole := respelled_foldAfter (c :: rest)
    rw [foldAfter_of_not_stands hnone, ← hafter] at hwhole
    obtain ⟨after', hspelled, _⟩ :=
      exists_append_of_respelled (not_mem_versioned h (by decide)) hwhole
    exact hnone version after' ⟨h, hspelled.symm⟩

/-- For every text. It can be read in one way only as characters and versioned namespaces that
leaves no versioned namespace out; folding writes the placeholder for each of these namespaces and
every character as it is. Two versioned namespaces in a text never overlap. None is left after
folding, so that folding once more changes nothing. -/
theorem foldVersions_replaces_versions (text : String) :
    (∃! parts, Splits parts text.toList) ∧
      (∀ parts, Splits parts text.toList →
        (foldVersions text).toList = parts.flatMap Part.folded) ∧
      (∀ v w before before' after after', Stands v before after text.toList →
        Stands w before' after' text.toList → before.length ≤ before'.length →
          (v = w ∧ before = before') ∨
            before.length + (versioned v).toList.length ≤ before'.length) ∧
      (∀ version before after, ¬Stands version before after (foldVersions text).toList) ∧
      foldVersions (foldVersions text) = foldVersions text := by
  have hfold : (foldVersions text).toList = foldAfter 0 text.toList := String.toList_ofList
  refine ⟨existsUnique_splits text.toList, ?_, ?_, ?_, ?_⟩
  · intro parts hparts
    rw [hfold, foldAfter_of_splits hparts]
  · intro v w before before' after after' hv hw hfirst
    exact hv.eq_or_apart hw hfirst
  · intro version before after hstands
    refine not_infix_foldAfter hstands.isVersion text.toList ⟨before, after, ?_⟩
    rw [List.append_assoc, hstands.spelled, hfold]
  · rw [foldVersions, hfold, foldAfter_respelled (respelled_foldAfter text.toList), foldVersions]

/-- Half a namespace ahead of a whole one, a version that ends in an underscore, and no version. -/
example : foldVersions ("pxrInternal_vpxrInternal_v1__pxrReserved__::A, " ++
      "pxrInternal_v0_24___pxrReserved____pxrReserved__, pxrInternal_v__pxrReserved__") =
    "pxrInternal_v{ns}::A, {ns}__pxrReserved__, pxrInternal_v__pxrReserved__" := by
  decide +kernel

end InteropWitness.Namespace

import InteropWitness.Proofs.Text.Respelling

namespace InteropWitness.Namespace

/-- A version of the library: digits and underscores, and at least one of them. -/
def IsVersion (version : String) : Prop :=
  version.toList ≠ [] ∧ ∀ c ∈ version.toList, isVersionChar c = true

instance (version : String) : Decidable (IsVersion version) :=
  decidable_of_iff (version.toList ≠ [] ∧ version.toList.all isVersionChar = true)
    (by rw [List.all_eq_true]; rfl)

def versioned (version : String) : String := opening ++ version ++ closing

theorem toList_versioned (version : String) :
    (versioned version).toList = opening.toList ++ (version.toList ++ closing.toList) := by
  rw [versioned, String.toList_append, String.toList_append, List.append_assoc]

theorem versioned_ne_nil (version : String) : (versioned version).toList ≠ [] := by
  rw [toList_versioned]
  exact List.cons_ne_nil _ _

theorem not_mem_versioned {version : String} (h : IsVersion version) {c : Char}
    (hc : c ∉ opening.toList ∧ isVersionChar c = false ∧ c ∉ closing.toList) :
    c ∉ (versioned version).toList := by
  rw [toList_versioned, List.mem_append, List.mem_append, not_or, not_or]
  refine ⟨hc.1, fun hmem => ?_, hc.2.2⟩
  have hversion := h.2 c hmem
  rw [hc.2.1] at hversion
  cases hversion

theorem ne_p_of_isVersionChar {c : Char} (h : isVersionChar c = true) : c ≠ 'p' := by
  rintro rfl
  exact absurd h (by decide)

/-- The closing has a letter at its third place, so none starts in a version that it ends. -/
theorem not_starts_with_closing {c : Char} {version : List Char}
    (h : ∀ d ∈ c :: version, isVersionChar d = true) (rest : List Char) :
    ¬closing.toList <+: c :: (version ++ (closing.toList ++ rest)) := by
  rintro ⟨after, hafter⟩
  have hthird : (c :: (version ++ (closing.toList ++ rest)))[2]? = some 'p' := by
    rw [← hafter]
    rfl
  match version with
  | [] => exact absurd (Option.some.inj hthird : '_' = 'p') (by decide)
  | [d] => exact absurd (Option.some.inj hthird : '_' = 'p') (by decide)
  | d :: e :: version =>
    exact ne_p_of_isVersionChar (h e (by simp)) (Option.some.inj hthird)

theorem breakOn_closing {version : List Char} (h : ∀ c ∈ version, isVersionChar c = true)
    (rest : List Char) :
    Text.breakOn closing.toList (version ++ (closing.toList ++ rest)) = some (version, rest) := by
  induction version with
  | nil =>
    have hcons : closing.toList ++ rest = '_' :: (closing.toList.tail ++ rest) := rfl
    rw [List.nil_append, hcons, Text.breakOn, ← hcons,
      List.isPrefixOf?_eq_some_iff_append_eq.2 rfl]
  | cons c version ih =>
    rw [List.cons_append, Text.breakOn]
    split
    · next hstarts =>
      exact absurd ⟨_, List.append_eq_of_isPrefixOf?_eq_some hstarts⟩
        (not_starts_with_closing h rest)
    · rw [ih fun d hd => h d (List.mem_cons_of_mem _ hd)]
      rfl

theorem versionedLength?_versioned {version : String} (h : IsVersion version)
    (rest : List Char) :
    versionedLength? ((versioned version).toList ++ rest) =
      some (versioned version).toList.length := by
  have hall : version.toList ≠ [] ∧ version.toList.all isVersionChar = true :=
    ⟨h.1, List.all_eq_true.2 h.2⟩
  rw [versionedLength?, toList_versioned, List.append_assoc,
    List.isPrefixOf?_eq_some_iff_append_eq.2 rfl, Option.bind_some, List.append_assoc,
    breakOn_closing h.2, Option.bind_some]
  simp only
  rw [if_pos hall, List.length_append, List.length_append, String.length_toList,
    String.length_toList, String.length_toList, Nat.add_assoc]

theorem exists_eq_append_of_versionedLength? {text : List Char} {length : Nat}
    (h : versionedLength? text = some length) :
    ∃ version rest, IsVersion version ∧ text = (versioned version).toList ++ rest := by
  obtain ⟨after, hopening, h⟩ := Option.bind_eq_some_iff.1 h
  obtain ⟨⟨version, rest⟩, hclosing, h⟩ := Option.bind_eq_some_iff.1 h
  simp only at h
  split at h
  · next hversion =>
    refine ⟨.ofList version, rest, ?_, ?_⟩
    · rw [IsVersion, String.toList_ofList]
      exact ⟨hversion.1, List.all_eq_true.1 hversion.2⟩
    · rw [toList_versioned, String.toList_ofList,
        ← List.append_eq_of_isPrefixOf?_eq_some hopening, ← Text.append_of_breakOn hclosing,
        List.append_assoc, List.append_assoc]
  · cases h

theorem foldAfter_append (passed rest : List Char) :
    foldAfter passed.length (passed ++ rest) = foldAfter 0 rest := by
  induction passed with
  | nil => rfl
  | cons c passed ih => exact ih

theorem foldAfter_versioned {version : String} (h : IsVersion version) (rest : List Char) :
    foldAfter 0 ((versioned version).toList ++ rest) =
      placeholder.toList ++ foldAfter 0 rest := by
  have hlength := versionedLength?_versioned h rest
  obtain ⟨c, tail, hcons⟩ := List.exists_cons_of_ne_nil (versioned_ne_nil version)
  rw [hcons] at hlength ⊢
  rw [List.cons_append] at hlength ⊢
  rw [foldAfter, hlength]
  simp only [List.length_cons, Nat.add_sub_cancel]
  rw [foldAfter_append]

theorem foldAfter_cons {c : Char} {rest : List Char}
    (h : ∀ version after, IsVersion version → c :: rest ≠ (versioned version).toList ++ after) :
    foldAfter 0 (c :: rest) = c :: foldAfter 0 rest := by
  rw [foldAfter]
  split
  · next length hlength =>
    obtain ⟨version, after, hversion, heq⟩ := exists_eq_append_of_versionedLength? hlength
    exact absurd heq (h version after hversion)
  · rfl

theorem foldAfter_placeholder (rest : List Char) :
    foldAfter 0 (placeholder.toList ++ rest) = placeholder.toList ++ foldAfter 0 rest := by
  have hstep : ∀ c, c ≠ 'p' → ∀ rest, foldAfter 0 (c :: rest) = c :: foldAfter 0 rest := by
    intro c hc rest
    refine foldAfter_cons fun version after _ heq => hc ?_
    rw [toList_versioned] at heq
    exact (List.cons.inj heq).1
  change foldAfter 0 ('\x7b' :: 'n' :: 's' :: '\x7d' :: rest) = _
  rw [hstep _ (by decide), hstep _ (by decide), hstep _ (by decide), hstep _ (by decide)]
  rfl

/-- A placeholder may be swapped for the namespace of any version. -/
def Versions (v w : List Char) : Prop :=
  v = placeholder.toList ∧ ∃ version, IsVersion version ∧ w = (versioned version).toList

open Text

/-- A word without the opening brace of the placeholder is spelled only one way. -/
theorem exists_append_of_respelled {word s t : List Char} (hword : '\x7b' ∉ word)
    (h : Respelled Versions (word ++ s) t) :
    ∃ t', t = word ++ t' ∧ Respelled Versions s t' := by
  induction word generalizing t with
  | nil => exact ⟨t, rfl, h⟩
  | cons c word ih =>
    rw [List.mem_cons, not_or] at hword
    generalize htext : c :: word ++ s = text at h
    cases h with
    | nil => cases htext
    | char d rest =>
      cases htext
      obtain ⟨t', rfl, ht'⟩ := ih hword.2 rest
      exact ⟨t', rfl, ht'⟩
    | word hw rest =>
      obtain ⟨rfl, _⟩ := hw
      exact absurd (List.cons.inj htext).1.symm hword.1

/-- No versioned namespace that is put in starts inside the word. -/
def Resists (word : List Char) : Prop :=
  ∀ s t, Respelled Versions s (word ++ t) → ∃ s', s = word ++ s' ∧ Respelled Versions s' t

theorem Resists.append {v w : List Char} (hv : Resists v) (hw : Resists w) : Resists (v ++ w) := by
  intro s t h
  rw [List.append_assoc] at h
  obtain ⟨s₁, rfl, h₁⟩ := hv _ _ h
  obtain ⟨s₂, rfl, h₂⟩ := hw _ _ h₁
  exact ⟨s₂, (List.append_assoc v w s₂).symm, h₂⟩

theorem Resists.cons {c : Char} {word : List Char} (hword : Resists word)
    (hstarts : ∀ version s t, IsVersion version →
      (versioned version).toList ++ s ≠ c :: word ++ t) :
    Resists (c :: word) := by
  intro s t h
  generalize htext : c :: word ++ t = text at h
  cases h with
  | nil => cases htext
  | char d rest =>
    cases htext
    obtain ⟨s', rfl, hs'⟩ := hword _ _ rest
    exact ⟨s', rfl, hs'⟩
  | word hw rest =>
    obtain ⟨_, version, hversion, rfl⟩ := hw
    exact absurd htext.symm (hstarts version _ t hversion)

theorem resists_of_not_mem {word : List Char} (h : 'p' ∉ word) : Resists word := by
  induction word with
  | nil => exact fun s t hs => ⟨s, rfl, hs⟩
  | cons c word ih =>
    rw [List.mem_cons, not_or] at h
    refine (ih h.2).cons fun version s t _ heq => h.1 ?_
    rw [toList_versioned] at heq
    exact (List.cons.inj heq).1

/-- The only other letter that an opening starts with is that of the closing, and the two part ways
at their fourth letter. -/
theorem resists_tail {version : String} (h : IsVersion version) :
    Resists (versioned version).toList.tail := by
  have hclosing : Resists ("pxrReserved__").toList := by
    refine (@resists_of_not_mem "xrReserved__".toList (by decide)).cons fun _ s t _ heq => ?_
    have hfourth := congrArg (·[3]?) heq
    rw [toList_versioned] at hfourth
    exact absurd (Option.some.inj hfourth : 'I' = 'R') (by decide)
  have hversion : 'p' ∉ version.toList := fun hmem => ne_p_of_isVersionChar (h.2 _ hmem) rfl
  have htail : (versioned version).toList.tail =
      "xrInternal_v".toList ++ (version.toList ++ ("__".toList ++ "pxrReserved__".toList)) := by
    rw [toList_versioned]
    rfl
  rw [htail]
  exact (resists_of_not_mem (by decide)).append
    ((resists_of_not_mem hversion).append ((resists_of_not_mem (by decide)).append hclosing))

/-- Folding takes both spellings of a text to the same one, whatever stands around the placeholders:
no versioned namespace starts inside another one, and none is made or broken where one is put in. -/
theorem foldAfter_respelled {s t : List Char} (h : Respelled Versions s t) :
    foldAfter 0 s = foldAfter 0 t := by
  induction hlength : s.length using Nat.strongRecOn generalizing s t with
  | ind n ih =>
    cases h with
    | nil => rfl
    | @word v w s t hw rest =>
      obtain ⟨rfl, version, hversion, rfl⟩ := hw
      rw [foldAfter_placeholder, foldAfter_versioned hversion, ih s.length ?_ rest rfl]
      rw [← hlength, List.length_append]
      exact Nat.lt_add_of_pos_left (by decide)
    | @char c s t rest =>
      by_cases hstarts : ∃ version after, IsVersion version ∧
          c :: s = (versioned version).toList ++ after
      · obtain ⟨version, after, hversion, heq⟩ := hstarts
        have hwhole : Respelled Versions ((versioned version).toList ++ after) (c :: t) :=
          heq ▸ .char c rest
        obtain ⟨after', heq', hafter⟩ :=
          exists_append_of_respelled (not_mem_versioned hversion (by decide)) hwhole
        rw [heq, heq', foldAfter_versioned hversion, foldAfter_versioned hversion,
          ih after.length ?_ hafter rfl]
        rw [← hlength, heq, List.length_append]
        exact Nat.lt_add_of_pos_left (List.length_pos_iff.2 (versioned_ne_nil version))
      · have hneither : ∀ version after, IsVersion version →
            c :: t ≠ (versioned version).toList ++ after := by
          intro version after hversion heq
          have hcons : (versioned version).toList = 'p' :: (versioned version).toList.tail := by
            rw [toList_versioned]
            rfl
          rw [hcons, List.cons_append] at heq
          obtain ⟨rfl, rfl⟩ := List.cons.inj heq
          obtain ⟨s', rfl, _⟩ := resists_tail hversion _ _ rest
          exact hstarts ⟨version, s', hversion, by rw [hcons]; rfl⟩
        rw [foldAfter_cons fun version after hversion heq =>
            hstarts ⟨version, after, hversion, heq⟩,
          foldAfter_cons hneither, ih s.length ?_ rest rfl]
        rw [← hlength, List.length_cons]
        exact Nat.lt_succ_self _

theorem respelled_expand {version : String} (h : IsVersion version) (text : String) :
    Respelled Versions text.toList (expand text (versioned version)).toList := by
  rw [expand, String.toList_ofList]
  exact respelled_replaceAll (List.cons_ne_nil _ _) ⟨rfl, version, h, rfl⟩ text.toList

theorem foldVersions_expand {version : String} (h : IsVersion version) (text : String) :
    foldVersions (expand text (versioned version)) = foldVersions text := by
  rw [foldVersions, ← foldAfter_respelled (respelled_expand h text), foldVersions]

end InteropWitness.Namespace

import InteropWitness.Proofs.Text.Search

namespace InteropWitness.Text.Bracketed

/-- A text without a separator in it. -/
def Whole (field : String) : Prop := ¬separator.toList <:+: field.toList

instance (field : String) : Decidable (Whole field) :=
  decidable_of_iff (breakOn separator.toList field.toList = none) breakOn_eq_none_iff

theorem whole_of_not_mem {field : String} (h : ' ' ∉ field.toList) : Whole field := by
  intro hoccurs
  exact h (hoccurs.subset (by decide))

theorem inside?_brackets (text : List Char) : inside? ('[' :: text ++ [']']) = some text := by
  rw [List.cons_append, inside?, List.getLast?_append, List.getLast?_singleton, Option.some_or,
    if_pos rfl, List.dropLast_concat]

theorem decode?_encode {fields : List String} (hne : fields ≠ []) (h : ∀ f ∈ fields, Whole f) :
    decode? (encode fields) = some fields := by
  have hcut : splitOn separator.toList
      (separator.toList.intercalate (fields.map String.toList)) = fields.map String.toList := by
    refine splitOn_intercalate (by decide) (fun hmap => hne (List.map_eq_nil_iff.1 hmap)) ?_
    intro piece hpiece
    obtain ⟨f, hf, rfl⟩ := List.mem_map.1 hpiece
    exact h f hf
  rw [decode?, encode, String.toList_ofList, inside?_brackets, Option.map_some, hcut, List.map_map]
  simp

theorem brackets_of_inside? {token text : List Char} (h : inside? token = some text) :
    '[' :: text ++ [']'] = token := by
  unfold inside? at h
  split at h
  · next rest =>
    split at h
    · next hlast =>
      obtain ⟨fields, rfl⟩ := List.getLast?_eq_some_iff.1 hlast
      rw [← Option.some.inj h, List.dropLast_concat, List.cons_append]
    · cases h
  · cases h

/-- A token that is read is the written form of its fields, so each list of fields has one. -/
theorem encode_of_decode? {token : String} {fields : List String}
    (h : decode? token = some fields) : encode fields = token := by
  obtain ⟨text, hinside, hfields⟩ := Option.map_eq_some_iff.1 h
  have hpieces : fields.map String.toList = splitOn separator.toList text := by
    rw [← hfields, List.map_map]
    simp [Function.comp_def]
  rw [encode, hpieces, intercalate_splitOn (by decide), brackets_of_inside? hinside,
    String.ofList_toList]

theorem whole_of_mem_decode? {token : String} {fields : List String} {f : String}
    (h : decode? token = some fields) (hf : f ∈ fields) : Whole f := by
  obtain ⟨text, _, rfl⟩ := Option.map_eq_some_iff.1 h
  obtain ⟨piece, hpiece, rfl⟩ := List.mem_map.1 hf
  rw [Whole, String.toList_ofList]
  exact not_infix_of_mem_splitOn (by decide) hpiece

theorem ne_nil_of_decode? {token : String} {fields : List String}
    (h : decode? token = some fields) : fields ≠ [] := by
  obtain ⟨text, _, rfl⟩ := Option.map_eq_some_iff.1 h
  exact fun hnil => splitOn_ne_nil separator.toList text (List.map_eq_nil_iff.1 hnil)

theorem decode?_encode_iff {fields : List String} :
    decode? (encode fields) = some fields ↔ fields ≠ [] ∧ ∀ f ∈ fields, Whole f :=
  ⟨fun h => ⟨ne_nil_of_decode? h, fun _ hf => whole_of_mem_decode? h hf⟩,
    fun h => decode?_encode h.1 h.2⟩

end InteropWitness.Text.Bracketed

namespace InteropWitness.Text.Word64

theorem exists_toDigits_eq_cons (n : Nat) :
    ∃ c rest, Nat.toDigits 10 n = c :: rest ∧ c.isDigit = true := by
  obtain ⟨c, rest, hcons⟩ := List.exists_cons_of_ne_nil (Nat.toDigits_ne_nil (n := n) (b := 10))
  exact ⟨c, rest, hcons,
    Nat.isDigit_of_mem_toDigits (by decide) (by decide) (hcons ▸ List.mem_cons_self)⟩

theorem digits?_toDigits (n : Nat) : digits? (Nat.toDigits 10 n) = some n := by
  have hdigits : Nat.toDigits 10 n ≠ [] ∧ (Nat.toDigits 10 n).all Char.isDigit = true :=
    ⟨Nat.toDigits_ne_nil,
      List.all_eq_true.2 fun _ hc => Nat.isDigit_of_mem_toDigits (by decide) (by decide) hc⟩
  rw [digits?, if_pos hdigits, ← Nat.ofDigitChars_eq_foldl, Nat.ofDigitChars_ten_toDigits]

theorem integer?_toDigits (n : Nat) : integer? (Nat.toDigits 10 n) = some (Int.ofNat n) := by
  have hdigits := digits?_toDigits n
  obtain ⟨c, rest, hcons, hc⟩ := exists_toDigits_eq_cons n
  rw [hcons] at hdigits ⊢
  unfold integer?
  split
  · next hplus =>
    cases hplus
    exact absurd hc (by decide)
  · next hminus =>
    cases hminus
    exact absurd hc (by decide)
  · rw [hdigits]
    rfl

theorem toList_ofNat (n : Nat) : (toString (Int.ofNat n)).toList = Nat.toDigits 10 n :=
  Nat.toList_repr

theorem toList_negSucc (n : Nat) :
    (toString (Int.negSucc n)).toList = '-' :: Nat.toDigits 10 (n + 1) := by
  change ("-" ++ (n + 1).repr).toList = _
  rw [String.toList_append, Nat.toList_repr]
  rfl

theorem integer?_toString (value : Int) : integer? (toString value).toList = some value := by
  cases value with
  | ofNat n => rw [toList_ofNat, integer?_toDigits]
  | negSucc n =>
    rw [toList_negSucc, integer?, digits?_toDigits]
    rfl

theorem eq_minus_or_isDigit {value : Int} {c : Char} (h : c ∈ (toString value).toList) :
    c = '-' ∨ c.isDigit = true := by
  cases value with
  | ofNat n =>
    rw [toList_ofNat] at h
    exact Or.inr (Nat.isDigit_of_mem_toDigits (by decide) (by decide) h)
  | negSucc n =>
    rw [toList_negSucc] at h
    rcases List.mem_cons.1 h with hminus | hdigit
    · exact Or.inl hminus
    · exact Or.inr (Nat.isDigit_of_mem_toDigits (by decide) (by decide) hdigit)

theorem decode?_encode (word : Int64) : decode? (encode word) = some word := by
  have hrange : Int64.minValue.toInt ≤ word.toInt ∧ word.toInt ≤ Int64.maxValue.toInt :=
    ⟨word.minValue_le_toInt, word.toInt_le⟩
  rw [decode?, encode, integer?_toString, Option.bind_some, if_pos hrange, Int64.ofInt_toInt]

end InteropWitness.Text.Word64

import InteropWitness.Proofs.Text.Encodings
import InteropWitness.Verdict

namespace InteropWitness

open Text.Bracketed

theorem ImportClass.ofTag?_tag (i : ImportClass) : ofTag? i.tag = some i := by
  cases i <;> rfl

theorem StringVerdict.ofTag?_tag (v : StringVerdict) : ofTag? v.tag = some v := by
  cases v <;> rfl

namespace RelationVerdict

/-- The texts that a token holds besides the tag. -/
def payload : RelationVerdict → List String
  | differentTypes first second => [first, second]
  | _ => []

theorem find?_plain_encode (fields : List String) :
    plain.find? (·.tag = encode fields) = none := by
  rw [List.find?_eq_none]
  intro v hv htag
  have hhead : ∀ v ∈ plain, v.tag.toList.head? ≠ some '[' := by decide
  apply hhead v hv
  rw [of_decide_eq_true htag, encode, String.toList_ofList]
  rfl

theorem ofToken?_token {v : RelationVerdict} (h : ∀ s ∈ v.payload, Whole s) :
    ofToken? v.token = some v := by
  cases v with
  | differentTypes first second =>
    have htag : Whole (differentTypes first second).tag :=
      @whole_of_not_mem "availableDifferentArgumentTypes" (by decide)
    have hdecode : decode? (encode [(differentTypes first second).tag, first, second]) =
        some [(differentTypes first second).tag, first, second] :=
      decode?_encode (List.cons_ne_nil _ _) (List.forall_mem_cons.2 ⟨htag, h⟩)
    rw [ofToken?, token, find?_plain_encode, hdecode]
    exact if_pos rfl
  | _ => rfl

end RelationVerdict

namespace EnumCases

/-- The names of the cases. -/
def payload (e : EnumCases) : List String := e.cases.map Prod.fst

theorem isScoped?_scoping (isScoped : Bool) : isScoped? (scoping isScoped) = some isScoped := by
  cases isScoped <;> rfl

theorem addCase_of_not_mem {e : EnumCases} {name : String} {value : Int64}
    (hnd : ((e.cases ++ [(name, value)]).map Prod.fst).Nodup) :
    e.addCase name value = .ok ⟨e.isScoped, e.cases ++ [(name, value)], hnd⟩ := by
  unfold addCase
  split
  · rfl
  · next old hlookup =>
    rw [List.map_append, List.nodup_append] at hnd
    obtain ⟨before, after, hcases, _⟩ := List.lookup_eq_some_iff.1 hlookup
    have hmem : name ∈ e.cases.map Prod.fst := by simp [hcases]
    exact absurd rfl (hnd.2.2 name hmem name (by simp))

theorem addFields_flatMap {rest : List (String × Int64)} {e : EnumCases}
    (hnd : ((e.cases ++ rest).map Prod.fst).Nodup) :
    e.addFields (rest.flatMap fun c => [c.1, Text.Word64.encode c.2]) =
      some (.ok ⟨e.isScoped, e.cases ++ rest, hnd⟩) := by
  induction rest generalizing e with
  | nil =>
    obtain ⟨isScoped, cases, hcases⟩ := e
    simp [addFields]
  | cons c rest ih =>
    have hconcat : e.cases ++ c :: rest = e.cases ++ [(c.1, c.2)] ++ rest := by simp
    have hfirst : ((e.cases ++ [(c.1, c.2)]).map Prod.fst).Nodup := by
      rw [hconcat, List.map_append] at hnd
      exact (List.nodup_append.1 hnd).1
    rw [List.flatMap_cons, List.cons_append, List.cons_append, List.nil_append, addFields,
      Text.Word64.decode?_encode]
    simp only [addCase_of_not_mem hfirst, hconcat]
    exact ih _

theorem whole_scoping (isScoped : Bool) : Whole (scoping isScoped) := by
  apply whole_of_not_mem
  cases isScoped <;> decide

theorem whole_encode (value : Int64) : Whole (Text.Word64.encode value) := by
  apply whole_of_not_mem
  intro hblank
  rcases Text.Word64.eq_minus_or_isDigit hblank with h | h
  · exact absurd h (by decide)
  · exact absurd h (by decide)

theorem read?_token {e : EnumCases} (h : ∀ s ∈ e.payload, Whole s) :
    read? e.token = some (.ok e) := by
  have hfields : ∀ f ∈ scoping e.isScoped :: e.cases.flatMap fun c =>
      [c.1, Text.Word64.encode c.2], Whole f := by
    rw [List.forall_mem_cons]
    refine ⟨whole_scoping e.isScoped, fun f hf => ?_⟩
    obtain ⟨c, hc, hf⟩ := List.mem_flatMap.1 hf
    rcases List.mem_cons.1 hf with rfl | hf
    · exact h c.1 (List.mem_map_of_mem hc)
    · rw [List.mem_singleton.1 hf]
      exact whole_encode c.2
  have heven : (e.cases.flatMap fun c => [c.1, Text.Word64.encode c.2]).length % 2 = 0 := by
    simp only [List.length_flatMap, List.length_cons, List.length_nil, List.map_const',
      List.sum_replicate_nat]
    omega
  rw [read?, token, decode?_encode (List.cons_ne_nil _ _) hfields]
  simp only [isScoped?_scoping, Option.bind_some, heven, if_true]
  exact @addFields_flatMap e.cases (empty e.isScoped) e.nodup

theorem ofToken?_token {e : EnumCases} (h : ∀ s ∈ e.payload, Whole s) :
    ofToken? e.token = some e := by
  rw [ofToken?, read?_token h]

end EnumCases

/-- The kinds of results that listings hold. -/
inductive ResultKind where
  | relation
  | stringConversion
  | importClass
  | enumCases
deriving DecidableEq, Repr

namespace ResultKind

def Result : ResultKind → Type
  | relation => RelationVerdict
  | stringConversion => StringVerdict
  | importClass => ImportClass
  | enumCases => EnumCases

instance (kind : ResultKind) : Tokenized kind.Result :=
  match kind with
  | relation => inferInstanceAs (Tokenized RelationVerdict)
  | stringConversion => inferInstanceAs (Tokenized StringVerdict)
  | importClass => inferInstanceAs (Tokenized ImportClass)
  | enumCases => inferInstanceAs (Tokenized EnumCases)

/-- The texts that a token takes over from the result. -/
def payload : (kind : ResultKind) → kind.Result → List String
  | relation, v => RelationVerdict.payload v
  | stringConversion, _ => []
  | importClass, _ => []
  | enumCases, e => EnumCases.payload e

theorem ofToken?_token {kind : ResultKind} {v : kind.Result} (h : ∀ s ∈ kind.payload v, Whole s) :
    Tokenized.ofToken? (Tokenized.token v) = some v := by
  cases kind with
  | relation => exact RelationVerdict.ofToken?_token h
  | stringConversion => exact StringVerdict.ofTag?_tag v
  | importClass => exact ImportClass.ofTag?_tag v
  | enumCases => exact EnumCases.ofToken?_token h

end ResultKind

namespace RelationVerdict

theorem plain_eq_tag {v : RelationVerdict} (h : v ∈ plain) : v.token = v.tag ∧ v.payload = [] := by
  cases v with
  | differentTypes first second => simp [plain] at h
  | _ => exact ⟨rfl, rfl⟩

theorem ofToken?_cases {text : String} {v : RelationVerdict} (h : ofToken? text = some v) :
    (v ∈ plain ∧ v.tag = text) ∨
      ∃ first second, v = differentTypes first second ∧
        decode? text = some [v.tag, first, second] := by
  unfold ofToken? at h
  split at h
  · next w hfind =>
    cases h
    have htag := List.find?_some hfind
    exact Or.inl ⟨List.mem_of_find?_eq_some hfind, of_decide_eq_true htag⟩
  · split at h
    · next tag first second hdecode =>
      split at h
      · next htag =>
        cases h
        exact Or.inr ⟨first, second, rfl, htag ▸ hdecode⟩
      · cases h
    · cases h

theorem token_of_ofToken? {text : String} {v : RelationVerdict} (h : ofToken? text = some v) :
    v.token = text := by
  rcases ofToken?_cases h with ⟨hplain, htag⟩ | ⟨first, second, rfl, hdecode⟩
  · rw [(plain_eq_tag hplain).1, htag]
  · exact encode_of_decode? hdecode

theorem whole_of_ofToken? {text : String} {v : RelationVerdict} (h : ofToken? text = some v) :
    ∀ s ∈ v.payload, Whole s := by
  rcases ofToken?_cases h with ⟨hplain, _⟩ | ⟨first, second, rfl, hdecode⟩
  · rw [(plain_eq_tag hplain).2]
    exact List.forall_mem_nil _
  · exact fun s hs => whole_of_mem_decode? hdecode (List.mem_cons_of_mem _ hs)

theorem ofToken?_token_iff {v : RelationVerdict} :
    ofToken? v.token = some v ↔ ∀ s ∈ v.payload, Whole s :=
  ⟨whole_of_ofToken?, ofToken?_token⟩

theorem token_injective {v w : RelationVerdict} (hv : ∀ s ∈ v.payload, Whole s)
    (hw : ∀ s ∈ w.payload, Whole s) (h : v.token = w.token) : v = w := by
  have hread := ofToken?_token hv
  rw [h, ofToken?_token hw] at hread
  exact (Option.some.inj hread).symm

end RelationVerdict

/-- Field lists and bracketed texts are inverse to each other: a list is read back from its written
form exactly if it has a field and no field holds the separator, and a text that is read is the
written form of what is read from it. So it is with relation verdicts and their tokens, and among
the verdicts that are read back no two share a token. -/
theorem bracketed_tokens_invert :
    (∀ fields : List String,
      decode? (encode fields) = some fields ↔ fields ≠ [] ∧ ∀ f ∈ fields, Whole f) ∧
    (∀ (token : String) (fields : List String),
      decode? token = some fields → encode fields = token) ∧
    (∀ v : RelationVerdict,
      RelationVerdict.ofToken? v.token = some v ↔ ∀ s ∈ v.payload, Whole s) ∧
    (∀ v w : RelationVerdict, (∀ s ∈ v.payload, Whole s) → (∀ s ∈ w.payload, Whole s) →
      v.token = w.token → v = w) ∧
    ∀ (text : String) (v : RelationVerdict),
      RelationVerdict.ofToken? text = some v → v.token = text :=
  ⟨fun _ => decode?_encode_iff, fun _ _ => encode_of_decode?,
    fun _ => RelationVerdict.ofToken?_token_iff, fun _ _ => RelationVerdict.token_injective,
    fun _ _ => RelationVerdict.token_of_ofToken?⟩

/-- The first type ends in the beginning of a separator, the second begins like the end of one. -/
def commaTypes : RelationVerdict := .differentTypes "a,," " [b]"

/-- Written with the separator inside a type, two verdicts share a token. -/
theorem commaTypes_are_read_back :
    commaTypes.token = "[availableDifferentArgumentTypes,, a,,,,  [b]]" ∧
      RelationVerdict.ofToken? commaTypes.token = some commaTypes ∧
      (∀ v : RelationVerdict, (∀ s ∈ v.payload, Whole s) → v.token = commaTypes.token →
        v = commaTypes) ∧
      decode? commaTypes.token = some [commaTypes.tag, "a,,", " [b]"] ∧
      encode [commaTypes.tag, "a,,", " [b]"] = commaTypes.token ∧
      RelationVerdict.ofToken? (RelationVerdict.differentTypes "a,, b" "c").token ≠
        some (.differentTypes "a,, b" "c") ∧
      (RelationVerdict.differentTypes "a,, b" "c").token =
        (RelationVerdict.differentTypes "a" "b,, c").token := by
  obtain ⟨hfields, htext, hverdict, hinjective, hread⟩ := bracketed_tokens_invert
  have hwhole : ∀ s ∈ commaTypes.payload, Whole s := by decide
  have htoken : RelationVerdict.ofToken? commaTypes.token = some commaTypes :=
    (hverdict commaTypes).2 hwhole
  have hdecode : decode? commaTypes.token = some [commaTypes.tag, "a,,", " [b]"] :=
    (hfields _).2 ⟨by decide, by decide⟩
  refine ⟨hread _ commaTypes (by decide +kernel), htoken, ?_, hdecode, htext _ _ hdecode, ?_,
    by decide +kernel⟩
  · exact fun v hv => hinjective v commaTypes hv hwhole
  · rw [ne_eq, hverdict]
    decide

end InteropWitness

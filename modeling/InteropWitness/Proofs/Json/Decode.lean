import InteropWitness.Json.Decode

namespace InteropWitness.Json

section Readers

variable {α : Type} {encode : α → Json} {decode : Json → Option α}

@[simp] theorem text?_ofText (text : String) : (ofText text).text? = some text := rfl

@[simp] theorem bool?_bool (b : Bool) : (bool b).bool? = some b := rfl

@[simp] theorem tag?_ofText {names : List String} {name : String} (h : name ∈ names) :
    tag? names (ofText name) = some name := if_pos h

theorem natural?_ofNat {bound n : Nat} (h : n < bound) : natural? bound (ofNat n) = some n := by
  simp [natural?, ofNat, Number.natural?, Number.ofNat, h]

theorem list?_map (h : ∀ a, decode (encode a) = some a) (l : List α) :
    list? decode (array (l.map encode)) = some l := by
  induction l with
  | nil => rfl
  | cons a rest ih =>
    rw [list?] at ih ⊢
    rw [List.map_cons, List.mapM_cons, h, ih]
    rfl

theorem nullable?_of_ne {v : Json} (h : v ≠ null) : nullable? decode v = (decode v).map some := by
  cases v with
  | null => exact absurd rfl h
  | bool | number | string | array | object => rfl

theorem members?_record (members : List (String × Json)) :
    (record members).members? = some members := by
  rw [record, members?]
  induction members with
  | nil => rfl
  | cons m rest ih =>
    rw [List.map_cons, List.mapM_cons, ih]
    rfl

@[simp] theorem fields?_record (order : List String) (members : List (String × Json)) :
    fields? order (record members) = some members := members?_record members

end Readers

namespace Number

theorem le_foldl_digits (kept : Nat) (digits : List Nat) :
    kept ≤ digits.foldl (fun value d => 10 * value + d) kept := by
  induction digits generalizing kept with
  | nil => exact Nat.le_refl kept
  | cons d rest ih =>
    have hstep := ih (10 * kept + d)
    rw [List.foldl_cons]
    omega

theorem keepDigits_eq {kept : Nat} {digits : List Nat}
    (h : digits.foldl (fun value d => 10 * value + d) kept < UInt64.size) :
    keepDigits kept digits = (digits.foldl (fun value d => 10 * value + d) kept, []) := by
  induction digits generalizing kept with
  | nil => rfl
  | cons d rest ih =>
    rw [List.foldl_cons] at h ⊢
    have hfits : 10 * kept + d < UInt64.size := Nat.lt_of_le_of_lt (le_foldl_digits _ rest) h
    rw [keepDigits, if_pos hfits, ih h]

theorem leading_ofNat {n : Nat} (h : n < UInt64.size) : (ofNat n).leading = (n, 0) := by
  have hvalue : ((Nat.toDigits 10 n).map fun c => c.toNat - '0'.toNat).foldl
      (fun value d => 10 * value + d) 0 = n := by
    rw [List.foldl_map, ← Nat.ofDigitChars_eq_foldl, Nat.ofDigitChars_ten_toDigits]
  have hkept := keepDigits_eq (hvalue.symm ▸ h)
  rw [hvalue] at hkept
  simp only [leading, ofNat, hkept, List.map_nil, keepDigits]
  rfl

theorem toPrecision_le (n : Nat) : toPrecision n ≤ 2 * n + 1 := by
  have hunit : Nat.pow 2 (n.log2 - 52) ≤ n + 1 := by
    by_cases hn : n = 0
    · subst hn
      decide
    · calc Nat.pow 2 (n.log2 - 52) ≤ Nat.pow 2 n.log2 := Nat.pow_le_pow_right (by decide) (by omega)
        _ ≤ n := Nat.log2_self_le hn
        _ ≤ n + 1 := Nat.le_succ n
  unfold toPrecision
  simp only
  split <;> omega

theorem isFinite_ofNat {n : Nat} (h : n < UInt64.size) : (ofNat n).isFinite = true := by
  have hone : toPrecision (Nat.pow 10 0) = 1 := by decide
  have hsize : UInt64.size = 18446744073709551616 := rfl
  have hoverflow : 2 * UInt64.size < overflow := by decide +kernel
  have hround := toPrecision_le n
  have hproduct : toPrecision n * toPrecision (Nat.pow 10 0) < overflow := by
    rw [hone]
    omega
  rw [isFinite, leading_ofNat h]
  exact Bool.or_eq_true_iff.2 (Or.inr (Bool.and_eq_true_iff.2 ⟨rfl, decide_eq_true hproduct⟩))

end Number

section Storage

theorem isStorable_ofNat {n : Nat} (h : n < UInt64.size) (levels : Nat) :
    (ofNat n).isStorable levels = true := Number.isFinite_ofNat h

@[simp] theorem isStorable_ofText (levels : Nat) (text : String) :
    (ofText text).isStorable levels = true := rfl

@[simp] theorem isStorable_bool (levels : Nat) (b : Bool) : (bool b).isStorable levels = true := rfl

theorem isStorable_array_map {α : Type} {encode : α → Json} {levels : Nat}
    (h : ∀ a, (encode a).isStorable levels = true) (l : List α) :
    (array (l.map encode)).isStorable (levels + 1) = true := by
  have hall : areStorable levels (l.map encode) = true := by
    induction l with
    | nil => rfl
    | cons a rest ih => rw [List.map_cons, areStorable, h, ih, Bool.true_and]
  rw [isStorable, Nat.add_sub_cancel, hall]
  simp

theorem isStorable_record {levels : Nat} {members : List (String × Json)}
    (h : ∀ m ∈ members, m.2.isStorable levels = true) :
    (record members).isStorable (levels + 1) = true := by
  have hall : membersStorable levels (members.map fun m => (some m.1, m.2)) = true := by
    induction members with
    | nil => rfl
    | cons m rest ih =>
      rw [List.map_cons, membersStorable, h m List.mem_cons_self,
        ih fun m hm => h m (List.mem_cons_of_mem _ hm)]
      rfl
  rw [record, isStorable, Nat.add_sub_cancel, hall]
  simp

theorem storedMembers?_record {level : Nat} {first : String} {members : List (String × Json)}
    (h : ∀ m ∈ members, m.1 = first ∨ m.2.isStorable (maximalDepth - level) = true) :
    storedMembers? level first (record members) = some members := by
  have hall : (members.all fun m => m.1 = first || m.2.isStorable (maximalDepth - level)) = true :=
    List.all_eq_true.2 fun m hm => by simpa using h m hm
  rw [storedMembers?, members?_record, Option.filter_some, if_pos hall]

end Storage

end InteropWitness.Json

import InteropWitness.Proofs.StringConversion.Run

namespace InteropWitness.StringConversion

variable {ctx : Context}

theorem revised_of_alike {d e : Decl} (hd : d ∈ ctx.unit.decls) (he : e ∈ ctx.unit.decls)
    (h : d.identity = e.identity) (halike : d.Alike e) (old : Option StringVerdict) :
    revised ctx d old = revised ctx e old := by
  have hrecord : revisedByRecord ctx d old = revisedByRecord ctx e old := by
    simp only [revisedByRecord, StringOverride.exactVerdict?, halike.name, halike.inLibrary, h,
      StringOverride.matching_of_alike hd he h halike]
  rw [revised, revised, halike.kind, hrecord, h]

/-- What a declaration makes of an entry it makes once. -/
theorem revised_revised (d : Decl) (old : Option StringVerdict) :
    revised ctx d (revised ctx d old) = revised ctx d old := by
  unfold revised
  cases d.kind with
  | record r =>
    simp only [revisedByRecord]
    split_ifs
    · cases ctx.import? d.identity with
      | none => rfl
      | some i =>
        simp only
        split_ifs
        · rfl
        · rfl
        · cases (StringOverride.matching ctx.config.stringTable ctx.unit d).getLast? <;> rfl
    · cases StringOverride.exactVerdict? ctx.config.stringTable d <;> rfl
  | enumeration e =>
    simp only
    split_ifs
    · rfl
    · rfl
  | function f => rfl
  | other => rfl

theorem foldl_revised {d : Decl} {decls : List Decl}
    (hsame : ∀ e ∈ decls, ∀ old, revised ctx e old = revised ctx d old)
    (old : Option StringVerdict) :
    decls.foldl (fun old e => revised ctx e old) (revised ctx d old) = revised ctx d old := by
  induction decls with
  | nil => rfl
  | cons e rest ih =>
    rw [List.foldl_cons, hsame e List.mem_cons_self, revised_revised]
    exact ih fun e he => hsame e (List.mem_cons_of_mem _ he)

/-- After declarations that do what `d` does or nothing, and `d` among them, `d` does nothing. -/
theorem revised_foldl_of_mem {d : Decl} {decls : List Decl}
    (hsame : ∀ e ∈ decls,
      (∀ old, revised ctx e old = revised ctx d old) ∨ ∀ old, revised ctx e old = old)
    (hd : d ∈ decls) (old : Option StringVerdict) :
    revised ctx d (decls.foldl (fun old e => revised ctx e old) old) =
      decls.foldl (fun old e => revised ctx e old) old := by
  induction decls using List.reverseRecOn with
  | nil => cases hd
  | append_singleton rest e ih =>
    rw [List.foldl_append, List.foldl_cons, List.foldl_nil]
    have hrest : ∀ f ∈ rest,
        (∀ old, revised ctx f old = revised ctx d old) ∨ ∀ old, revised ctx f old = old :=
      fun f hf => hsame f (List.mem_append_left _ hf)
    rcases hsame e (List.mem_append_right _ List.mem_cons_self) with he | he
    · rw [he, revised_revised]
    · rw [he]
      rw [List.mem_append, List.mem_singleton] at hd
      rcases hd with hd | rfl
      · exact ih hrest hd
      · exact he _

variable (hu : ctx.unit.RedeclaredAlike) {d : Decl}
include hu

/-- Whichever declarations of the unit are visited, and in whatever order, the entry of one of them
is what that one makes of it. -/
theorem get?_foldl_enter_of_alike {decls : List Decl} (hsub : ∀ e ∈ decls, e ∈ ctx.unit.decls)
    (hd : d ∈ decls) :
    (decls.foldl (fun store d => enter ctx d store) .empty).get? d.identity =
      revised ctx d none := by
  have hsame : ∀ e ∈ decls.filter fun e => e.identity = d.identity,
      ∀ old, revised ctx e old = revised ctx d old := by
    intro e he old
    obtain ⟨he, hid⟩ := List.mem_filter.1 he
    rw [decide_eq_true_eq] at hid
    exact revised_of_alike (hsub e he) (hsub d hd) hid (hu e (hsub e he) d (hsub d hd) hid) old
  have hmem : d ∈ decls.filter fun e => e.identity = d.identity :=
    List.mem_filter.2 ⟨hd, decide_eq_true rfl⟩
  rw [get?_foldl_enter, OrderedMap.get?_empty]
  cases hdecls : decls.filter fun e => e.identity = d.identity with
  | nil =>
    rw [hdecls] at hmem
    cases hmem
  | cons first rest =>
    rw [hdecls] at hsame
    rw [List.foldl_cons, hsame first List.mem_cons_self]
    exact foldl_revised (fun e he => hsame e (List.mem_cons_of_mem _ he)) none

variable (hd : d ∈ ctx.unit.decls)
include hd

theorem get?_opened_of_alike : (opened ctx).get? d.identity = revised ctx d none :=
  get?_foldl_enter_of_alike hu (fun _ he => he) hd

theorem settled_of_alike (v : StringVerdict) :
    ctx.settled (fun _ => judge ctx.unit (candidates ctx)) d.identity v =
      if v = .unknown then judge ctx.unit (candidates ctx) d else v := by
  obtain ⟨e, he, hdefining, hid⟩ := SourceUnit.exists_defining hd
  by_cases hopen : v = .unknown
  · rw [if_pos hopen, Context.settled_of_open (decide_eq_true hopen) hdefining, judge, judge,
      SourceUnit.conversionClosure_of_kind he hd hid (hu e he d hd hid).kind]
  · rw [if_neg hopen, Context.settled_of_decided (decide_eq_false hopen)]

theorem get?_resolved_of_alike :
    (resolved ctx).get? d.identity = (revised ctx d none).map fun v =>
      if v = .unknown then judge ctx.unit (candidates ctx) d else v := by
  rw [resolved, OrderedMap.get?_mapValues, get?_opened_of_alike hu hd]
  exact Option.map_congr fun v _ => settled_of_alike hu hd v

end InteropWitness.StringConversion

import InteropWitness.Proofs.Json.Number
import InteropWitness.Proofs.Json.String

namespace InteropWitness.Json

mutual
/-- The tokens of a value. -/
def tokens : Json → List Token
  | null => [.null]
  | bool b => [.bool b]
  | number n => [.number n]
  | string text => [.string text]
  | array [] => [.openArray, .closeArray]
  | array (item :: rest) => .openArray :: (tokens item ++ (itemTokens rest ++ [.closeArray]))
  | object [] => [.openObject, .closeObject]
  | object ((key, value) :: rest) =>
    .openObject :: .string key :: .colon :: (tokens value ++ (memberTokens rest ++ [.closeObject]))

def itemTokens : List Json → List Token
  | [] => []
  | item :: rest => .comma :: (tokens item ++ itemTokens rest)

def memberTokens : List (Option String × Json) → List Token
  | [] => []
  | (key, value) :: rest => .comma :: .string key :: .colon :: (tokens value ++ memberTokens rest)
end

section Reading

theorem tokens?_space {c : Char} (hc : isSpace c = true) (text : List Char) :
    tokens? (c :: text) = tokens? text := by
  rw [tokens?, if_pos hc]

theorem tokens?_newline (depth : Nat) (text : List Char) :
    tokens? (newline depth ++ text) = tokens? text := by
  rw [newline, List.cons_append, tokens?_space rfl]
  induction 2 * depth with
  | zero => rfl
  | succ n ih => rw [List.replicate_succ, List.cons_append, tokens?_space rfl, ih]

theorem tokens?_cons {c : Char} {rest after : List Char} {t : Token} (hc : isSpace c = false)
    (h : Token.read? (c :: rest) = some (t, after)) :
    tokens? (c :: rest) = (tokens? after).map (t :: ·) := by
  rw [tokens?, if_neg (by simp [hc])]
  split
  · next hnone =>
    rw [h] at hnone
    cases hnone
  · next hsome =>
    rw [h] at hsome
    cases hsome
    rfl

theorem tokens?_quoted (text : Option String) (after : List Char) :
    tokens? (quoted text ++ after) = (tokens? after).map (.string text :: ·) := by
  have hread := read?_quoted text after
  obtain ⟨rest, hquote⟩ : ∃ rest, quoted text = '"' :: rest := by
    cases text <;> exact ⟨_, rfl⟩
  rw [hquote, List.cons_append] at hread ⊢
  exact tokens?_cons rfl hread

theorem tokens?_number {after : List Char} (h : Delimited after) (n : Number) :
    tokens? (n.render ++ after) = (tokens? after).map (.number n :: ·) := by
  have hread := read?_render h n
  obtain ⟨c, rest, hcons, hc⟩ := exists_render_eq_cons n
  have hspace : isSpace c = false := by
    refine Bool.eq_false_iff.2 fun hspace => ?_
    simp only [isSpace, Bool.or_eq_true, decide_eq_true_eq] at hspace
    rcases hspace with ((rfl | rfl) | rfl) | rfl <;> exact absurd hc (by decide)
  rw [hcons, List.cons_append] at hread ⊢
  exact tokens?_cons hspace hread

theorem tokens?_name (key : Option String) (text : List Char) :
    tokens? (quoted key ++ (':' :: ' ' :: text)) =
      (tokens? text).map fun ts => .string key :: .colon :: ts := by
  have hcolon : tokens? (':' :: ' ' :: text) = (tokens? (' ' :: text)).map (.colon :: ·) :=
    tokens?_cons rfl rfl
  rw [tokens?_quoted, hcolon, tokens?_space rfl, Option.map_map]
  rfl

end Reading

theorem delimited_newline (depth : Nat) (text : List Char) : Delimited (newline depth ++ text) := by
  intro c hc
  cases hc
  decide

theorem delimited_renderItems (depth depth' : Nat) (items : List Json) (text : List Char) :
    Delimited (renderItems depth items ++ (newline depth' ++ text)) := by
  cases items with
  | nil => exact delimited_newline depth' text
  | cons item rest =>
    intro c hc
    cases hc
    decide

theorem delimited_renderMembers (depth depth' : Nat) (members : List (Option String × Json))
    (text : List Char) : Delimited (renderMembers depth members ++ (newline depth' ++ text)) := by
  cases members with
  | nil => exact delimited_newline depth' text
  | cons m rest =>
    intro c hc
    cases hc
    decide

mutual
/-- The text of a value is read as its tokens, whatever depth it stands at. -/
theorem tokens?_render (v : Json) (depth : Nat) {after : List Char} (h : Delimited after) :
    tokens? (v.render depth ++ after) = (tokens? after).map (v.tokens ++ ·) := by
  match v with
  | null => exact tokens?_cons rfl rfl
  | bool true => exact tokens?_cons rfl rfl
  | bool false => exact tokens?_cons rfl rfl
  | number n => exact tokens?_number h n
  | string text => exact tokens?_quoted text after
  | array [] =>
    have htext : (array []).render depth ++ after = '[' :: ']' :: after := by simp [render]
    rw [htext, tokens?_cons rfl rfl, tokens?_cons rfl rfl]
    cases tokens? after <;> simp [tokens]
  | array (item :: rest) =>
    have htext : (array (item :: rest)).render depth ++ after =
        '[' :: (newline (depth + 1) ++ (item.render (depth + 1) ++
          (renderItems (depth + 1) rest ++ (newline depth ++ (']' :: after))))) := by
      simp [render]
    rw [htext, tokens?_cons rfl rfl, tokens?_newline,
      tokens?_render item _ (delimited_renderItems _ _ _ _), tokens?_renderItems rest,
      tokens?_cons rfl rfl]
    cases tokens? after <;> simp [tokens]
  | object [] =>
    have htext : (object []).render depth ++ after = '\x7b' :: '\x7d' :: after := by simp [render]
    rw [htext, tokens?_cons rfl rfl, tokens?_cons rfl rfl]
    cases tokens? after <;> simp [tokens]
  | object ((key, value) :: rest) =>
    have htext : (object ((key, value) :: rest)).render depth ++ after =
        '\x7b' :: (newline (depth + 1) ++ (quoted key ++ (':' :: ' ' :: (value.render (depth + 1) ++
          (renderMembers (depth + 1) rest ++ (newline depth ++ ('\x7d' :: after))))))) := by
      simp [render]
    rw [htext, tokens?_cons rfl rfl, tokens?_newline, tokens?_name,
      tokens?_render value _ (delimited_renderMembers _ _ _ _), tokens?_renderMembers rest,
      tokens?_cons rfl rfl]
    cases tokens? after <;> simp [tokens]

theorem tokens?_renderItems (items : List Json) (depth depth' : Nat) (text : List Char) :
    tokens? (renderItems depth items ++ (newline depth' ++ text)) =
      (tokens? text).map (itemTokens items ++ ·) := by
  match items with
  | [] =>
    rw [renderItems, List.nil_append, tokens?_newline]
    cases tokens? text <;> simp [itemTokens]
  | item :: rest =>
    have htext : renderItems depth (item :: rest) ++ (newline depth' ++ text) =
        ',' :: (newline depth ++ (item.render depth ++
          (renderItems depth rest ++ (newline depth' ++ text)))) := by
      simp [renderItems]
    rw [htext, tokens?_cons rfl rfl, tokens?_newline,
      tokens?_render item _ (delimited_renderItems _ _ _ _), tokens?_renderItems rest]
    cases tokens? text <;> simp [itemTokens]

theorem tokens?_renderMembers (members : List (Option String × Json)) (depth depth' : Nat)
    (text : List Char) :
    tokens? (renderMembers depth members ++ (newline depth' ++ text)) =
      (tokens? text).map (memberTokens members ++ ·) := by
  match members with
  | [] =>
    rw [renderMembers, List.nil_append, tokens?_newline]
    cases tokens? text <;> simp [memberTokens]
  | (key, value) :: rest =>
    have htext : renderMembers depth ((key, value) :: rest) ++ (newline depth' ++ text) =
        ',' :: (newline depth ++ (quoted key ++ (':' :: ' ' :: (value.render depth ++
          (renderMembers depth rest ++ (newline depth' ++ text)))))) := by
      simp [renderMembers]
    rw [htext, tokens?_cons rfl rfl, tokens?_newline, tokens?_name,
      tokens?_render value _ (delimited_renderMembers _ _ _ _), tokens?_renderMembers rest]
    cases tokens? text <;> simp [memberTokens]
end

theorem tokens?_print (v : Json) : tokens? v.print.toList = some v.tokens := by
  have hend : Delimited [] := by
    intro c hc
    cases hc
  have htokens := tokens?_render v 0 hend
  rw [List.append_nil] at htokens
  rw [print, String.toList_ofList, htokens, tokens?, Option.map_some, List.append_nil]

section Machine

theorem exists_tokens_eq_cons (v : Json) : ∃ t rest, v.tokens = t :: rest ∧ t ≠ .closeArray := by
  cases v with
  | null | bool | number | string => exact ⟨_, _, rfl, by simp⟩
  | array items => cases items <;> exact ⟨_, _, rfl, by simp⟩
  | object members => cases members <;> exact ⟨_, _, rfl, by simp⟩

/-- Where an array may end, a value can also start. -/
theorem steps_itemOrClose (v : Json) (stack : List Frame) (ts : List Token) :
    (State.itemOrClose stack).steps (v.tokens ++ ts) =
      (State.value (.array [] :: stack)).steps (v.tokens ++ ts) := by
  obtain ⟨t, rest, hcons, hne⟩ := exists_tokens_eq_cons v
  have hstep : (State.itemOrClose stack).step t = (State.value (.array [] :: stack)).step t := by
    cases t with
    | closeArray => exact absurd rfl hne
    | openObject | closeObject | openArray | colon | comma | null | bool | number | string => rfl
  rw [hcons, List.cons_append, State.steps, State.steps, hstep]

mutual
/-- From the wish for a value, the tokens of one lead to its completion. -/
theorem steps_tokens (v : Json) (stack : List Frame) (ts : List Token) :
    (State.value stack).steps (v.tokens ++ ts) = (State.complete v stack).steps ts := by
  match v with
  | null | bool _ | number _ | string _ => rfl
  | array [] => rfl
  | array (item :: rest) =>
    calc (State.value stack).steps ((array (item :: rest)).tokens ++ ts)
        = (State.itemOrClose stack).steps
            (item.tokens ++ (itemTokens rest ++ .closeArray :: ts)) := by
          simp [tokens, State.steps, State.step, State.start]
      _ = (State.complete (array (item :: rest)) stack).steps ts := by
          rw [steps_itemOrClose, steps_tokens item, State.complete, steps_itemTokens rest]
          rfl
  | object [] => rfl
  | object ((key, value) :: rest) =>
    calc (State.value stack).steps ((object ((key, value) :: rest)).tokens ++ ts)
        = (State.value (.object [] key :: stack)).steps
            (value.tokens ++ (memberTokens rest ++ .closeObject :: ts)) := by
          simp [tokens, State.steps, State.step, State.start]
      _ = (State.complete (object ((key, value) :: rest)) stack).steps ts := by
          rw [steps_tokens value, State.complete, steps_memberTokens rest]
          rfl

theorem steps_itemTokens (items done : List Json) (stack : List Frame) (ts : List Token) :
    (State.afterItem done stack).steps (itemTokens items ++ .closeArray :: ts) =
      (State.complete (.array (done.reverse ++ items)) stack).steps ts := by
  match items with
  | [] => simp [itemTokens, State.steps, State.step]
  | item :: rest =>
    calc (State.afterItem done stack).steps (itemTokens (item :: rest) ++ .closeArray :: ts)
        = (State.value (.array done :: stack)).steps
            (item.tokens ++ (itemTokens rest ++ .closeArray :: ts)) := by
          simp [itemTokens, State.steps, State.step]
      _ = (State.complete (.array (done.reverse ++ item :: rest)) stack).steps ts := by
          rw [steps_tokens item, State.complete, steps_itemTokens rest, List.reverse_cons,
            List.append_assoc]
          rfl

theorem steps_memberTokens (members done : List (Option String × Json)) (stack : List Frame)
    (ts : List Token) :
    (State.afterMember done stack).steps (memberTokens members ++ .closeObject :: ts) =
      (State.complete (.object (done.reverse ++ members)) stack).steps ts := by
  match members with
  | [] => simp [memberTokens, State.steps, State.step]
  | (key, value) :: rest =>
    calc (State.afterMember done stack).steps
          (memberTokens ((key, value) :: rest) ++ .closeObject :: ts)
        = (State.value (.object done key :: stack)).steps
            (value.tokens ++ (memberTokens rest ++ .closeObject :: ts)) := by
          simp [memberTokens, State.steps, State.step]
      _ = (State.complete (.object (done.reverse ++ (key, value) :: rest)) stack).steps ts := by
          rw [steps_tokens value, State.complete, steps_memberTokens rest, List.reverse_cons,
            List.append_assoc]
          rfl
end

end Machine

/-- Every value is read back from its text. -/
theorem parse?_print (v : Json) : parse? v.print = some v := by
  have hsteps := steps_tokens v [] []
  rw [List.append_nil] at hsteps
  rw [parse?, tokens?_print, Option.bind_some, hsteps]
  rfl

end InteropWitness.Json

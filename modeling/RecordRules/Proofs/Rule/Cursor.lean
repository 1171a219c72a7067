import RecordRules.Proofs.Rule.Reading
import RecordRules.Rule.Cursor

/-!
# Reading stays within the tokens

Reading by positions answers as reading does, and so never takes a token that is not
there (`ofTokensAt_answer`).  Each run of a reader is accounted for by the tokens that it
consumes (`Bounded`): every call starts within the tokens, no deeper than there are opening
parentheses and connectives before it, and for each of those at most three calls are made.

    (ofTokensAt tokens limit).answer = (ofTokens limit tokens).mapError Stop.failed
    c ∈ (ofTokensAt tokens limit).calls → c.level ≤ 1 + nesting (tokens.take c.position)
-/

namespace RecordRules.Rule

/-! ## Tokens before a position -/

/-- Whether the expression after the token lies one level deeper. -/
def nests : Token → Bool
  | .openParen | .connective _ => true
  | _ => false

/-- The number of opening parentheses and connectives. -/
def nesting (tokens : List Token) : Nat := tokens.countP nests

variable {tokens : List Token} {limit position level : Nat}

theorem drop_of_getElem? {token : Token} (h : tokens[position]? = some token) :
    tokens.drop position = token :: tokens.drop (position + 1) := by
  obtain ⟨hlt, rfl⟩ := List.getElem?_eq_some_iff.1 h
  exact List.drop_eq_getElem_cons hlt

theorem drop_of_getElem?_eq_none (h : tokens[position]? = none) : tokens.drop position = [] :=
  List.drop_eq_nil_of_le (List.getElem?_eq_none_iff.1 h)

theorem lt_length_of_getElem? {token : Token} (h : tokens[position]? = some token) :
    position < tokens.length := (List.getElem?_eq_some_iff.1 h).1

theorem nesting_take_mono (tokens : List Token) {p q : Nat} (h : p ≤ q) :
    nesting (tokens.take p) ≤ nesting (tokens.take q) := by
  have hsub : (tokens.take p).Sublist (tokens.take q) := by
    rw [← Nat.min_eq_left h, ← List.take_take]
    exact List.take_sublist _ _
  exact hsub.countP_le

theorem nesting_take_le (tokens : List Token) (p : Nat) :
    nesting (tokens.take p) ≤ nesting tokens :=
  (List.take_sublist _ _).countP_le

theorem nesting_take_succ {token : Token} (h : tokens[position]? = some token)
    (hnests : nests token = true) :
    nesting (tokens.take (position + 1)) = nesting (tokens.take position) + 1 := by
  rw [List.take_add_one, h, nesting, List.countP_append, nesting]
  simp [hnests]

theorem nesting_le_length (tokens : List Token) : nesting tokens ≤ tokens.length :=
  List.countP_le_length

/-! ## Runs -/

namespace Run

variable {α β : Type} {x : Run α} {f : α → Run β}

theorem bind_of_ok {a : α} (h : x.answer = .ok a) :
    (x >>= f) = ⟨x.calls ++ (f a).calls, (f a).answer⟩ := by
  obtain ⟨calls, answer⟩ := x
  obtain rfl : answer = .ok a := h
  rfl

theorem bind_of_error {stop : Stop} (h : x.answer = .error stop) :
    (x >>= f) = ⟨x.calls, .error stop⟩ := by
  obtain ⟨calls, answer⟩ := x
  obtain rfl : answer = .error stop := h
  rfl

@[simp] theorem pure_bind (a : α) (f : α → Run β) : (pure a >>= f) = f a := rfl

theorem call_bind (reader : Reader) (position level : Nat) (f : Unit → Run β) :
    (call reader position level >>= f) =
      ⟨⟨reader, position, level⟩ :: (f ()).calls, (f ()).answer⟩ := rfl

end Run

/-! ## The same answers -/

/-- The answer of a reader by positions is that of the reader of the tokens left: the same
rule, with the position of the tokens after it, or the same error. -/
inductive Answers (tokens : List Token) : Except Stop (Rule × Nat) → Reading → Prop
  | ok (t : Rule) {position : Nat} : position ≤ tokens.length →
    Answers tokens (.ok (t, position)) (.ok (t, tokens.drop position))
  | failed (e : Error) : Answers tokens (.error (.failed e)) (.error e)

/-- A condition is one call.  Its three tokens are there when they are taken. -/
theorem readConditionAt_eq (hp : position ≤ tokens.length) :
    readConditionAt tokens position level =
      ⟨[⟨.condition, position, level⟩],
        match readCondition (tokens.drop position) with
        | .ok (t, _) => .ok (t, position + 3)
        | .error e => .error (.failed e)⟩ := by
  rw [readConditionAt, tokensFrom, if_pos hp]
  rcases tokens.drop position with _ | ⟨f, _ | ⟨o, _ | ⟨v, rest⟩⟩⟩
  · rfl
  · rfl
  · rfl
  · have hlength : ¬ (f :: o :: v :: rest).length < 3 := by
      simp only [List.length_cons]
      omega
    have hfield : tokenAt (f :: o :: v :: rest) 0 = pure f := rfl
    have hoperator : tokenAt (f :: o :: v :: rest) 1 = pure o := rfl
    have hvalue : tokenAt (f :: o :: v :: rest) 2 = pure v := rfl
    simp only [Run.pure_bind, hlength, if_false, hfield, hoperator, hvalue]
    rw [Run.call_bind, readCondition]
    cases readSlot .field f <;> cases readSlot .operator o <;> cases readSlot .value v <;> rfl

theorem drop_of_readCondition {t : Rule} {rest : List Token}
    (h : readCondition (tokens.drop position) = .ok (t, rest)) :
    position + 3 ≤ tokens.length ∧ tokens.drop (position + 3) = rest := by
  generalize hdrop : tokens.drop position = remaining at h
  unfold readCondition at h
  split at h
  · next f o v tail =>
    obtain ⟨field, -, h⟩ := bind_eq_ok_iff.1 h
    obtain ⟨operator, -, h⟩ := bind_eq_ok_iff.1 h
    obtain ⟨value, -, h⟩ := bind_eq_ok_iff.1 h
    obtain ⟨-, rfl⟩ : condition ⟨field, operator, value⟩ = t ∧ tail = rest := by
      simpa [pure, Except.pure] using h
    have hlength := congrArg List.length hdrop
    simp only [List.length_drop, List.length_cons] at hlength
    refine ⟨by omega, ?_⟩
    rw [← List.drop_drop, hdrop]
    rfl
  · cases h

theorem readConditionAt_answers (hp : position ≤ tokens.length) :
    Answers tokens (readConditionAt tokens position level).answer
      (readCondition (tokens.drop position)) := by
  rw [readConditionAt_eq hp]
  cases h : readCondition (tokens.drop position) with
  | error e => exact .failed e
  | ok p =>
    obtain ⟨t, rest⟩ := p
    obtain ⟨hafter, rfl⟩ := drop_of_readCondition h
    exact .ok t hafter

theorem readTermAt_answers {inner : Nat → Run (Rule × Nat)} {inner' : List Token → Reading}
    (hinner : ∀ q ≤ tokens.length, Answers tokens (inner q).answer (inner' (tokens.drop q)))
    (hp : position ≤ tokens.length) :
    Answers tokens (readTermAt tokens inner position level).answer
      (readTerm inner' (tokens.drop position)) := by
  rw [readTermAt, Run.call_bind]
  dsimp only
  split
  · next hnone =>
    rw [drop_of_getElem?_eq_none hnone]
    exact .failed _
  · next hopen =>
    have hlt := lt_length_of_getElem? hopen
    rw [drop_of_getElem? hopen, readTerm]
    have hanswers := hinner (position + 1) hlt
    generalize inner' (tokens.drop (position + 1)) = reading at hanswers
    generalize hrun : inner (position + 1) = run at hanswers
    obtain ⟨calls, answer⟩ := run
    cases hanswers with
    | failed e =>
      rw [Run.bind_of_error rfl]
      exact .failed e
    | @ok t q hq =>
      rw [Run.bind_of_ok rfl, ok_bind]
      dsimp only
      cases hnext : tokens[q]? with
      | none =>
        rw [drop_of_getElem?_eq_none hnext]
        exact .failed _
      | some token =>
        have hlt' := lt_length_of_getElem? hnext
        rw [drop_of_getElem? hnext]
        cases token with
        | closeParen => exact .ok t hlt'
        | openParen | connective | comparison | literal => exact .failed _
  · next token hne hsome =>
    have hanswers := @readConditionAt_answers tokens position level hp
    rw [drop_of_getElem? hsome] at hanswers ⊢
    cases token with
    | openParen => exact absurd rfl hne
    | closeParen | connective | comparison | literal => exact hanswers

/-- Counting levels up to the limit is counting down those that are left. -/
theorem readExpressionAt_answers (limit : Nat) (hp : position ≤ tokens.length) (level : Nat) :
    Answers tokens (readExpressionAt tokens limit position level).answer
      (readExpression limit (limit + 1 - level) (tokens.drop position)) := by
  induction hn : limit + 1 - level generalizing position level with
  | zero =>
    rw [readExpressionAt, Run.call_bind, if_pos (by omega)]
    exact .failed _
  | succ n ih =>
    rw [readExpressionAt, Run.call_bind, if_neg (by omega), readExpression]
    dsimp only
    have hanswers := @readTermAt_answers tokens position level _ _
      (fun q hq => ih hq (level + 1) (by omega)) hp
    generalize readTerm (readExpression limit n) (tokens.drop position) = reading at hanswers
    generalize readTermAt tokens _ position level = run at hanswers ⊢
    obtain ⟨calls, answer⟩ := run
    cases hanswers with
    | failed e =>
      rw [Run.bind_of_error rfl]
      exact .failed e
    | @ok t q hq =>
      rw [Run.bind_of_ok rfl, ok_bind]
      dsimp only
      cases hnext : tokens[q]? with
      | none =>
        have hread := Answers.ok t hq
        rw [drop_of_getElem?_eq_none hnext] at hread ⊢
        exact hread
      | some token =>
        have hread := Answers.ok t hq
        have hlt := lt_length_of_getElem? hnext
        rw [drop_of_getElem? hnext] at hread ⊢
        cases token with
        | openParen | closeParen | comparison | literal => exact hread
        | connective c =>
          cases hright : tokens[q + 1]? with
          | none =>
            rw [drop_of_getElem?_eq_none hright]
            exact .failed _
          | some first =>
            have hanswers := ih (Nat.succ_le_of_lt hlt) (level + 1) (by omega)
            rw [drop_of_getElem? hright] at hanswers ⊢
            dsimp only
            generalize readExpression limit n _ = reading at hanswers ⊢
            generalize readExpressionAt tokens limit (q + 1) (level + 1) = run at hanswers ⊢
            obtain ⟨calls, answer⟩ := run
            cases hanswers with
            | failed e =>
              rw [Run.bind_of_error rfl]
              exact .failed e
            | ok u hq' =>
              rw [Run.bind_of_ok rfl]
              exact .ok _ hq'

/-- All tokens are read by positions as they are read. -/
theorem ofTokensAt_answer (limit : Nat) (tokens : List Token) :
    (ofTokensAt tokens limit).answer = (ofTokens limit tokens).mapError Stop.failed := by
  rw [ofTokensAt, ofTokens]
  split
  · rfl
  · have hanswers := readExpressionAt_answers limit (Nat.zero_le tokens.length) 1
    rw [Nat.add_sub_cancel, List.drop_zero] at hanswers
    generalize readExpression limit limit tokens = reading at hanswers ⊢
    generalize readExpressionAt tokens limit 0 1 = run at hanswers ⊢
    obtain ⟨calls, answer⟩ := run
    cases hanswers with
    | failed e => rfl
    | @ok t q hq =>
      rw [Run.bind_of_ok rfl]
      cases hnext : tokens[q]? with
      | none =>
        rw [drop_of_getElem?_eq_none hnext]
        simp only [hnext]
        rfl
      | some token =>
        rw [drop_of_getElem? hnext]
        simp only [hnext]
        cases token <;> rfl

/-! ## What a run is accounted for by -/

/-- A call that starts within the tokens, and on a level that the tokens before it open. -/
structure Call.Within (c : Call) (tokens : List Token) : Prop where
  position_le : c.position ≤ tokens.length
  level_le : c.level ≤ 1 + nesting (tokens.take c.position)

/-- A run from a position makes its calls within the tokens, and up to `allowance` calls
besides three for each level that the tokens it consumes open.  If it answers, it has
consumed at least `advance` tokens; if it fails for its nesting, it has called a reader
on a level beyond the limit. -/
structure Bounded (tokens : List Token) (limit allowance advance position : Nat)
    (run : Run (Rule × Nat)) : Prop where
  within : ∀ c ∈ run.calls, c.Within tokens
  calls_le : run.calls.length + 3 * nesting (tokens.take position) ≤ allowance + 3 * nesting tokens
  of_ok : ∀ t q, run.answer = .ok (t, q) → position + advance ≤ q ∧ q ≤ tokens.length ∧
    run.calls.length + 3 * nesting (tokens.take position) ≤
      allowance + 3 * nesting (tokens.take q)
  of_tooDeep : run.answer = .error (.failed (.nestedTooDeep limit)) →
    ∃ c ∈ run.calls, limit < c.level

namespace Bounded

variable {allowance advance : Nat} {run : Run (Rule × Nat)}

theorem mono {allowance' advance' : Nat} (h : Bounded tokens limit allowance advance position run)
    (ha : allowance ≤ allowance') (hd : advance' ≤ advance) :
    Bounded tokens limit allowance' advance' position run where
  within := h.within
  calls_le := by
    have := h.calls_le
    omega
  of_ok := by
    intro t q hok
    obtain ⟨hq, hle, hcalls⟩ := h.of_ok t q hok
    exact ⟨by omega, hle, by omega⟩
  of_tooDeep := h.of_tooDeep

theorem pure (t : Rule) (hd : position + advance ≤ tokens.length) :
    Bounded tokens limit 0 advance position ⟨[], .ok (t, position + advance)⟩ where
  within := by simp
  calls_le := by
    have := nesting_take_le tokens position
    simp only [List.length_nil]
    omega
  of_ok := by
    rintro u q ⟨⟩
    have := nesting_take_mono tokens (Nat.le_add_right position advance)
    exact ⟨Nat.le_refl _, hd, by simp only [List.length_nil]; omega⟩
  of_tooDeep := by rintro ⟨⟩

theorem failed {e : Error} (he : e ≠ .nestedTooDeep limit) :
    Bounded tokens limit 0 advance position ⟨[], .error (.failed e)⟩ where
  within := by simp
  calls_le := by
    have := nesting_take_le tokens position
    simp only [List.length_nil]
    omega
  of_ok := by rintro t q ⟨⟩
  of_tooDeep := by
    rintro ⟨⟩
    exact absurd rfl he

/-- A recorded call takes one from the allowance. -/
theorem call {reader : Reader} (hc : Call.Within ⟨reader, position, level⟩ tokens)
    {rest : Unit → Run (Rule × Nat)}
    (h : Bounded tokens limit allowance advance position (rest ())) :
    Bounded tokens limit (allowance + 1) advance position
      (Run.call reader position level >>= rest) where
  within := by
    rw [Run.call_bind]
    exact List.forall_mem_cons.2 ⟨hc, h.within⟩
  calls_le := by
    have := h.calls_le
    rw [Run.call_bind]
    simp only [List.length_cons]
    omega
  of_ok := by
    intro t q hok
    obtain ⟨hq, hle, hcalls⟩ := h.of_ok t q hok
    rw [Run.call_bind]
    simp only [List.length_cons]
    exact ⟨hq, hle, by omega⟩
  of_tooDeep := by
    intro hdeep
    obtain ⟨c, hmem, hlevel⟩ := h.of_tooDeep hdeep
    exact ⟨c, List.mem_cons_of_mem _ hmem, hlevel⟩

/-- What follows an answer starts at the position that the answer comes with. -/
theorem bind (allowance' advance' : Nat) {f : Rule × Nat → Run (Rule × Nat)}
    (h : Bounded tokens limit allowance advance position run)
    (hf : ∀ t q, position + advance ≤ q → q ≤ tokens.length →
      Bounded tokens limit allowance' advance' q (f (t, q))) :
    Bounded tokens limit (allowance + allowance') (advance + advance') position (run >>= f) := by
  rcases hanswer : run.answer with stop | ⟨t, q⟩
  · rw [Run.bind_of_error hanswer]
    have hcalls := h.calls_le
    refine ⟨h.within, by dsimp only; omega, ?_, fun hdeep => h.of_tooDeep (hanswer.trans hdeep)⟩
    rintro t q ⟨⟩
  · rw [Run.bind_of_ok hanswer]
    obtain ⟨hq, hle, hcalls⟩ := h.of_ok t q hanswer
    have hrest := hf t q hq hle
    refine ⟨List.forall_mem_append.2 ⟨h.within, hrest.within⟩, ?_, ?_, ?_⟩
    · have := hrest.calls_le
      rw [List.length_append]
      omega
    · intro u q' hok
      obtain ⟨hq', hle', hcalls'⟩ := hrest.of_ok u q' hok
      rw [List.length_append]
      exact ⟨by omega, hle', by omega⟩
    · intro hdeep
      obtain ⟨c, hmem, hlevel⟩ := hrest.of_tooDeep hdeep
      exact ⟨c, List.mem_append_right _ hmem, hlevel⟩

/-- A token that opens a level pays for three calls. -/
theorem after_nests {token : Token} (htoken : tokens[position]? = some token)
    (hnests : nests token = true)
    (h : Bounded tokens limit (allowance + 3) advance (position + 1) run) :
    Bounded tokens limit allowance (advance + 1) position run := by
  have hcount := nesting_take_succ htoken hnests
  refine ⟨h.within, ?_, ?_, h.of_tooDeep⟩
  · have := h.calls_le
    omega
  · intro t q hok
    obtain ⟨hq, hle, hcalls⟩ := h.of_ok t q hok
    exact ⟨by omega, hle, by omega⟩

end Bounded

/-! ## The readers -/

/-- The fault of a condition is never its nesting. -/
theorem readCondition_ne_tooDeep (remaining : List Token) :
    FailsWith (· ≠ .nestedTooDeep limit) (readCondition remaining) := by
  have hslot : ∀ slot token,
      FailsWith (· ≠ .nestedTooDeep limit) (readSlot slot token) := by
    intro slot token
    unfold readSlot
    split
    · exact failsWith_ok _
    · exact failsWith_error (by simp)
  unfold readCondition
  split
  · exact (hslot _ _).bind fun _ => (hslot _ _).bind fun _ => (hslot _ _).bind fun _ =>
      failsWith_ok _
  · exact failsWith_error (by simp)

section
variable (hp : position ≤ tokens.length) (hl : level ≤ 1 + nesting (tokens.take position))

include hp hl

theorem bounded_readConditionAt :
    Bounded tokens limit 1 3 position (readConditionAt tokens position level) := by
  have hrun : readConditionAt tokens position level =
      Run.call .condition position level >>= fun _ =>
        ⟨[], (readConditionAt tokens position level).answer⟩ := by
    rw [readConditionAt_eq hp]
    rfl
  rw [hrun, readConditionAt_eq hp]
  refine Bounded.call ⟨hp, hl⟩ ?_
  dsimp only
  cases h : readCondition (tokens.drop position) with
  | ok p => exact .pure p.1 (drop_of_readCondition h).1
  | error e => exact .failed (readCondition_ne_tooDeep _ e h)

theorem bounded_readTermAt {inner : Nat → Run (Rule × Nat)}
    (hinner : ∀ q ≤ tokens.length, level + 1 ≤ 1 + nesting (tokens.take q) →
      Bounded tokens limit 3 3 q (inner q)) :
    Bounded tokens limit 2 3 position (readTermAt tokens inner position level) := by
  rw [readTermAt]
  show Bounded tokens limit (1 + 1) 3 position _
  refine Bounded.call ⟨hp, hl⟩ ?_
  split
  · exact (Bounded.failed (by simp)).mono (Nat.zero_le 1) (Nat.le_refl 3)
  · next hopen =>
    have hlt := lt_length_of_getElem? hopen
    have hcount := nesting_take_succ hopen rfl
    have hbody := Bounded.after_nests hopen rfl (hinner (position + 1) hlt (by omega))
    refine (hbody.bind 0 1 fun t q _ _ => ?_).mono (by omega) (by omega)
    dsimp only
    split
    · next hclose => exact .pure t (lt_length_of_getElem? hclose)
    · exact .failed (by simp)
  · exact bounded_readConditionAt hp hl

/-- Beyond the limit an expression is one call, which fails for its level. -/
theorem bounded_tooDeep (hlevel : limit < level) :
    Bounded tokens limit 3 3 position
      (Run.call .expression position level >>= fun _ => Run.fail (.tooDeep limit)) where
  within := List.forall_mem_singleton.2 ⟨hp, hl⟩
  calls_le := by
    have := nesting_take_le tokens position
    simp only [Run.call_bind, Run.fail, Run.ofExcept, List.length_singleton]
    omega
  of_ok := by rintro t q ⟨⟩
  of_tooDeep := fun _ => ⟨_, List.mem_singleton_self _, hlevel⟩

end

theorem bounded_readExpressionAt (limit : Nat) (hp : position ≤ tokens.length)
    (hl : level ≤ 1 + nesting (tokens.take position)) :
    Bounded tokens limit 3 3 position (readExpressionAt tokens limit position level) := by
  induction hn : limit + 1 - level generalizing position level with
  | zero =>
    have hlevel : limit < level := by omega
    rw [readExpressionAt, if_pos hlevel]
    exact bounded_tooDeep hp hl hlevel
  | succ n ih =>
    have hlevel : ¬ limit < level := by omega
    have hterm := @bounded_readTermAt tokens limit position level hp hl _
      fun q hq hinner => ih hq hinner (by omega)
    rw [readExpressionAt, if_neg hlevel]
    refine (Bounded.call ⟨hp, hl⟩ (hterm.bind 0 0 fun t q hq hle => ?_)).mono (by omega) (by omega)
    dsimp only
    split
    · next c hconnective =>
      have hlt := lt_length_of_getElem? hconnective
      have hcount := nesting_take_succ hconnective rfl
      have hmono := nesting_take_mono tokens (show position ≤ q by omega)
      split
      · exact .failed (by simp)
      · have hright := ih (show q + 1 ≤ tokens.length from hlt) (show level + 1 ≤ _ by omega)
          (by omega)
        have hbody := Bounded.after_nests hconnective rfl hright
        refine (hbody.bind 0 0 fun u q' _ hle' => ?_).mono (by omega) (by omega)
        exact .pure _ hle'
    · exact .pure t hle

/-! ## All readings -/

/-- What a call runs. -/
def Call.run (tokens : List Token) (limit : Nat) (c : Call) : Run (Rule × Nat) :=
  match c.reader with
  | .expression => readExpressionAt tokens limit c.position c.level
  | .term =>
    readTermAt tokens (fun position => readExpressionAt tokens limit position (c.level + 1))
      c.position c.level
  | .condition => readConditionAt tokens c.position c.level

theorem Call.Within.bounded_run {c : Call} (hc : c.Within tokens) :
    Bounded tokens limit 3 3 c.position (c.run tokens limit) := by
  unfold Call.run
  split
  · exact bounded_readExpressionAt limit hc.position_le hc.level_le
  · refine (bounded_readTermAt hc.position_le hc.level_le fun q hq hl => ?_).mono (by omega)
      (Nat.le_refl 3)
    exact bounded_readExpressionAt limit hq hl
  · exact (bounded_readConditionAt hc.position_le hc.level_le).mono (by omega) (Nat.le_refl 3)

theorem Answers.ne_outOfRange {answer : Except Stop (Rule × Nat)} {reading : Reading}
    (h : Answers tokens answer reading) : answer ≠ .error .outOfRange := by
  cases h <;> simp

/-- A call that starts within the tokens takes no token that is not there. -/
theorem Call.Within.run_ne_outOfRange {c : Call} (hc : c.Within tokens) :
    (c.run tokens limit).answer ≠ .error .outOfRange := by
  unfold Call.run
  split
  · exact (readExpressionAt_answers limit hc.position_le c.level).ne_outOfRange
  · exact Answers.ne_outOfRange (readTermAt_answers
      (fun q hq => readExpressionAt_answers limit hq (c.level + 1)) hc.position_le)
  · exact (readConditionAt_answers hc.position_le).ne_outOfRange

/-- The first call stands at the first token, on the first level. -/
theorem bounded_first (limit : Nat) (tokens : List Token) :
    Bounded tokens limit 3 3 0 (readExpressionAt tokens limit 0 1) :=
  bounded_readExpressionAt limit (Nat.zero_le _) (Nat.le_add_right 1 _)

theorem calls_ofTokensAt (limit : Nat) (tokens : List Token) :
    (ofTokensAt tokens limit).calls = [] ∨
      (ofTokensAt tokens limit).calls = (readExpressionAt tokens limit 0 1).calls := by
  rw [ofTokensAt]
  split
  · exact .inl rfl
  · right
    rcases hanswer : (readExpressionAt tokens limit 0 1).answer with stop | ⟨t, q⟩
    · rw [Run.bind_of_error hanswer]
    · rw [Run.bind_of_ok hanswer]
      dsimp only
      split
      all_goals exact List.append_nil _

/-- A reading that fails for its nesting has called a reader beyond the limit. -/
theorem exists_call_of_tooDeep (h : ofTokens limit tokens = .error (.nestedTooDeep limit)) :
    ∃ c : Call, c.Within tokens ∧ limit < c.level := by
  have hread : readExpression limit limit tokens = .error (.nestedTooDeep limit) := by
    unfold ofTokens at h
    split at h
    · cases h
    · rcases bind_eq_error_iff.1 h with h | ⟨⟨t, rest⟩, -, h⟩
      · exact h
      · dsimp only at h
        split at h <;> cases h
  have hanswers := readExpressionAt_answers limit (Nat.zero_le tokens.length) 1
  rw [Nat.add_sub_cancel, List.drop_zero, hread] at hanswers
  have hbounded := bounded_first limit tokens
  generalize readExpressionAt tokens limit 0 1 = run at hanswers hbounded
  obtain ⟨calls, answer⟩ := run
  cases hanswers with
  | failed e =>
    obtain ⟨c, hmem, hlevel⟩ := hbounded.of_tooDeep rfl
    exact ⟨c, hbounded.within c hmem, hlevel⟩

/-- **Reading stays within the tokens.**  Reading by positions answers as reading does.
Each call starts at a position within the tokens, on a level that is at most one above the
number of opening parentheses and connectives before it, which no word of 64 bits overflows;
it takes no token that is not there, and if it answers it has consumed three tokens.  A limit
above the number of those tokens is never exceeded, and whatever the limit is there are no
more than three calls for each of them and for the rule itself. -/
theorem ofTokensAt_bounded (limit : Nat) (tokens : List Token) :
    (ofTokensAt tokens limit).answer = (ofTokens limit tokens).mapError Stop.failed ∧
    (∀ c ∈ (ofTokensAt tokens limit).calls,
      c.position ≤ tokens.length ∧
      c.level ≤ 1 + nesting (tokens.take c.position) ∧
      (tokens.length + 2 < 0x10000000000000000 → c.level + 1 < 0x10000000000000000) ∧
      (c.run tokens limit).answer ≠ .error .outOfRange ∧
      ∀ t after, (c.run tokens limit).answer = .ok (t, after) →
        c.position + 3 ≤ after ∧ after ≤ tokens.length) ∧
    (nesting tokens < limit → ofTokens limit tokens ≠ .error (.nestedTooDeep limit)) ∧
    (ofTokensAt tokens limit).calls.length ≤ 3 * (nesting tokens + 1) := by
  have hbounded := bounded_first limit tokens
  refine ⟨ofTokensAt_answer limit tokens, ?_, ?_, ?_⟩
  · intro c hmem
    have hc : c.Within tokens := by
      rcases calls_ofTokensAt limit tokens with hcalls | hcalls <;> rw [hcalls] at hmem
      · cases hmem
      · exact hbounded.within c hmem
    refine ⟨hc.position_le, hc.level_le, ?_, hc.run_ne_outOfRange, ?_⟩
    · have hle := hc.level_le
      have hnesting := nesting_take_le tokens c.position
      have hlength := nesting_le_length tokens
      omega
    · intro t after hok
      obtain ⟨hafter, hle, -⟩ := hc.bounded_run.of_ok t after hok
      exact ⟨hafter, hle⟩
  · intro hlimit hdeep
    obtain ⟨c, hc, hlevel⟩ := exists_call_of_tooDeep hdeep
    have hle := hc.level_le
    have hnesting := nesting_take_le tokens c.position
    omega
  · have hcalls := hbounded.calls_le
    rw [List.take_zero, show nesting [] = 0 from rfl] at hcalls
    rcases calls_ofTokensAt limit tokens with h | h <;> rw [h]
    · exact Nat.zero_le _
    · omega

end RecordRules.Rule

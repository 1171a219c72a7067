import RecordRules.Proofs.Rule.Mapping

/-!
# What a JSON value denotes

An object denotes a rule by its `type`, its `value` and, if it is a combination, its
`left` and `right`, whose values denote the sub-rules one level below (`Denotes`).
Nothing else in it is looked at.  The reader accepts what denotes a rule within the
limit, with that rule, and refuses everything else with a fault of syntax.  Values that
are not empty and differ only in what is not looked at (`Alike`) get the same answer:

    ofMapping limit j = ok none      ↔  j = null ∨ j = {}                (ofMapping_eq_none_iff)
    ofMapping limit j = ok (some t)  ↔  Denotes limit j t                (ofMapping_eq_some_iff)
    Alike j j' → ofMapping limit j = ofMapping limit j'                  (ofMapping_congr)
-/

namespace RecordRules.Rule

/-! ## Specification -/

/-- `LiteralText j text`: the value gives the text as a literal.  A string is its own text,
and a number or a truth value gives its JSON text. -/
inductive LiteralText : Json → String → Prop
  | string (text : String) : LiteralText (.string text) text
  | number (x : Json.Number) : LiteralText (.number x) (Json.number x).render
  | bool (b : Bool) : LiteralText (.bool b) (Json.bool b).render

/-- `Denotes levels j t`: the value is an object that denotes the rule within so many levels. -/
inductive Denotes : (levels : Nat) → Json → Rule → Prop
  | operand {levels : Nat} {members payload : List (String × Json)} {literal : Json}
    {field operator text : String} :
    Fields.get? "type" members = some (.string "operand") →
    Fields.get? "value" members = some (.object payload) →
    Fields.get? "field" payload = some (.string field) →
    Fields.get? "operator" payload = some (.string operator) →
    Fields.get? "value" payload = some literal → LiteralText literal text →
    Denotes (levels + 1) (.object members) (.condition ⟨field, operator, text⟩)
  | operator {levels : Nat} {members : List (String × Json)} {op : String} {left right : Json}
    {l r : Rule} :
    Fields.get? "type" members = some (.string "operator") →
    Fields.get? "value" members = some (.string op) →
    Fields.get? "left" members = some left → Denotes levels left l →
    Fields.get? "right" members = some right → Denotes levels right r →
    Denotes (levels + 1) (.object members) (.combine op l r)

theorem not_denotes_null (levels : Nat) (t : Rule) : ¬ Denotes levels .null t := by
  rintro ⟨⟩

theorem not_denotes_empty (levels : Nat) (t : Rule) : ¬ Denotes levels (.object []) t := by
  intro h
  cases h with
  | operand htype => cases htype
  | operator htype => cases htype

/-- A rule is no deeper than the levels within which it is denoted. -/
theorem Denotes.depth_le {levels : Nat} {j : Json} {t : Rule} (h : Denotes levels j t) :
    t.depth ≤ levels := by
  induction h with
  | operand => exact Nat.succ_le_succ (Nat.zero_le _)
  | operator _ _ _ _ _ _ ihl ihr =>
    rw [depth]
    omega

/-! ## Conditions -/

theorem slotText_eq_ok_iff {slot : Slot} {members : List (String × Json)} {text : String} :
    slotText slot members = .ok text ↔ Fields.get? slot.name members = some (.string text) := by
  constructor
  · intro h
    unfold slotText at h
    split at h
    · next found hfound => rw [hfound, Except.ok.inj h]
    · cases h
    · cases h
  · intro h
    rw [slotText, h]

theorem render_number (x : Json.Number) : (Json.number x).render = String.ofList x.write :=
  congrArg String.ofList (List.append_nil x.write)

theorem render_bool (b : Bool) : (Json.bool b).render = String.ofList (Json.writeBool b) :=
  congrArg String.ofList (List.append_nil (Json.writeBool b))

theorem literalText_eq_ok_iff {members : List (String × Json)} {text : String} :
    literalText members = .ok text ↔
      ∃ literal, Fields.get? "value" members = some literal ∧ LiteralText literal text := by
  constructor
  · intro h
    unfold literalText at h
    split at h
    · next found hfound =>
      obtain rfl : found = text := Except.ok.inj h
      exact ⟨_, hfound, .string found⟩
    · next x hfound =>
      obtain rfl : String.ofList x.write = text := Except.ok.inj h
      exact ⟨_, hfound, render_number x ▸ .number x⟩
    · next b hfound =>
      obtain rfl : String.ofList (Json.writeBool b) = text := Except.ok.inj h
      exact ⟨_, hfound, render_bool b ▸ .bool b⟩
    · cases h
    · cases h
  · rintro ⟨literal, hfound, htext⟩
    cases htext with
    | string => simp [literalText, Slot.name, hfound]
    | number x => simp [literalText, Slot.name, hfound, render_number]
    | bool b => simp [literalText, Slot.name, hfound, render_bool]

theorem ofPayload_eq_ok_iff {payload : List (String × Json)} {c : Condition} :
    ofPayload (.object payload) = .ok c ↔
      Fields.get? "field" payload = some (.string c.field) ∧
      Fields.get? "operator" payload = some (.string c.operator) ∧
      ∃ literal, Fields.get? "value" payload = some literal ∧ LiteralText literal c.value := by
  constructor
  · intro h
    obtain ⟨field, hfield, h⟩ := bind_eq_ok_iff.1 h
    obtain ⟨operator, hoperator, h⟩ := bind_eq_ok_iff.1 h
    obtain ⟨value, hvalue, h⟩ := bind_eq_ok_iff.1 h
    obtain rfl : ⟨field, operator, value⟩ = c := Except.ok.inj h
    exact ⟨slotText_eq_ok_iff.1 hfield, slotText_eq_ok_iff.1 hoperator,
      literalText_eq_ok_iff.1 hvalue⟩
  · rintro ⟨hfield, hoperator, hvalue⟩
    have hfield' : slotText .field payload = .ok c.field := slotText_eq_ok_iff.2 hfield
    have hoperator' : slotText .operator payload = .ok c.operator := slotText_eq_ok_iff.2 hoperator
    rw [ofPayload, hfield', ok_bind, hoperator', ok_bind, literalText_eq_ok_iff.2 hvalue, ok_bind]
    rfl

/-! ## What is read is denoted -/

/-- A reader that takes no null value finds a sub-rule where there is one under the name. -/
theorem ofChild_eq_ok_iff {read : Json → Except Error Rule} (hnull : ∀ t, read .null ≠ .ok t)
    {side : Side} {members : List (String × Json)} {t : Rule} :
    ofChild read side members = .ok t ↔
      ∃ child, Fields.get? side.name members = some child ∧ read child = .ok t := by
  constructor
  · intro h
    unfold ofChild at h
    split at h
    · cases h
    · cases h
    · next child _ hchild => exact ⟨child, hchild, h⟩
  · rintro ⟨child, hchild, h⟩
    unfold ofChild
    split
    · next hnone => cases hnone.symm.trans hchild
    · next hsome =>
      obtain rfl := Option.some.inj (hsome.symm.trans hchild)
      exact absurd h (hnull t)
    · next other _ hother =>
      obtain rfl := Option.some.inj (hother.symm.trans hchild)
      exact h

theorem ofNode_null_ne_ok (limit levels : Nat) (t : Rule) : ofNode limit levels .null ≠ .ok t := by
  cases levels with
  | zero => rintro ⟨⟩
  | succ levels => rintro ⟨⟩

theorem denotes_of_ofNode {limit levels : Nat} {j : Json} {t : Rule}
    (h : ofNode limit levels j = .ok t) : Denotes levels j t := by
  induction levels generalizing j t with
  | zero =>
    rw [ofNode] at h
    cases h
  | succ levels ih =>
    cases j with
    | object members =>
      rw [ofNode] at h
      split at h
      · next htype =>
        split at h
        · next value hvalue =>
          obtain ⟨c, hc, rfl⟩ := map_eq_ok_iff.1 h
          cases value with
          | object payload =>
            obtain ⟨hfield, hoperator, literal, hliteral, htext⟩ := ofPayload_eq_ok_iff.1 hc
            exact .operand htype hvalue hfield hoperator hliteral htext
          | _ => cases hc
        · cases h
      · next htype =>
        split at h
        · next op hop =>
          obtain ⟨l, hl, h⟩ := bind_eq_ok_iff.1 h
          obtain ⟨r, hr, h⟩ := bind_eq_ok_iff.1 h
          obtain rfl : combine op l r = t := Except.ok.inj h
          have hnull := ofNode_null_ne_ok limit levels
          obtain ⟨left, hleft, hl⟩ := (ofChild_eq_ok_iff hnull).1 hl
          obtain ⟨right, hright, hr⟩ := (ofChild_eq_ok_iff hnull).1 hr
          exact .operator htype hop hleft (ih hl) hright (ih hr)
        · cases h
      · cases h
      · cases h
      · cases h
    | _ => cases h

theorem ofNode_of_denotes {limit levels : Nat} {j : Json} {t : Rule} (h : Denotes levels j t) :
    ofNode limit levels j = .ok t := by
  induction h with
  | @operand levels members payload literal field operator text htype hvalue hfield hoperator
      hliteral htext =>
    have hpayload : ofPayload (.object payload) = .ok ⟨field, operator, text⟩ :=
      ofPayload_eq_ok_iff.2 ⟨hfield, hoperator, literal, hliteral, htext⟩
    simp only [ofNode, htype, hvalue, hpayload]
    rfl
  | @operator levels members op left right l r htype hvalue hleft _ hright _ ihl ihr =>
    have hnull := ofNode_null_ne_ok limit levels
    have hl : ofChild (ofNode limit levels) .left members = .ok l :=
      (ofChild_eq_ok_iff hnull).2 ⟨left, hleft, ihl⟩
    have hr : ofChild (ofNode limit levels) .right members = .ok r :=
      (ofChild_eq_ok_iff hnull).2 ⟨right, hright, ihr⟩
    simp only [ofNode, htype, hvalue, hl, hr, ok_bind]
    rfl

theorem ofNode_eq_ok_iff {limit levels : Nat} {j : Json} {t : Rule} :
    ofNode limit levels j = .ok t ↔ Denotes levels j t :=
  ⟨denotes_of_ofNode, ofNode_of_denotes⟩

/-! ## Faults -/

/-- The error is a fault of syntax. -/
def IsSyntactic (e : Error) : Prop := ∃ fault, e = .badSyntax fault

theorem faulty_syntactic {α : Type} (fault : NodeFault) :
    FailsWith IsSyntactic (faulty fault : Except Error α) :=
  failsWith_error ⟨_, rfl⟩

theorem slotText_syntactic (slot : Slot) (members : List (String × Json)) :
    FailsWith IsSyntactic (slotText slot members) := by
  unfold slotText
  split
  · exact failsWith_ok _
  · exact faulty_syntactic _
  · exact faulty_syntactic _

theorem literalText_syntactic (members : List (String × Json)) :
    FailsWith IsSyntactic (literalText members) := by
  unfold literalText
  split
  · exact failsWith_ok _
  · exact failsWith_ok _
  · exact failsWith_ok _
  · exact faulty_syntactic _
  · exact faulty_syntactic _

theorem ofPayload_syntactic (j : Json) : FailsWith IsSyntactic (ofPayload j) := by
  unfold ofPayload
  split
  · refine (slotText_syntactic _ _).bind fun field => ?_
    refine (slotText_syntactic _ _).bind fun operator => ?_
    exact (literalText_syntactic _).bind fun value => failsWith_ok _
  · exact faulty_syntactic _

theorem ofChild_syntactic {read : Json → Except Error Rule}
    (hread : ∀ j, FailsWith IsSyntactic (read j)) (side : Side) (members : List (String × Json)) :
    FailsWith IsSyntactic (ofChild read side members) := by
  unfold ofChild
  split
  · exact faulty_syntactic _
  · exact faulty_syntactic _
  · exact hread _

theorem ofNode_syntactic (limit levels : Nat) (j : Json) :
    FailsWith IsSyntactic (ofNode limit levels j) := by
  induction levels generalizing j with
  | zero => exact failsWith_error ⟨_, rfl⟩
  | succ levels ih =>
    cases j with
    | object members =>
      rw [ofNode]
      split
      · split
        · exact (ofPayload_syntactic _).map _
        · exact faulty_syntactic _
      · split
        · refine (ofChild_syntactic ih _ _).bind fun l => ?_
          exact (ofChild_syntactic ih _ _).bind fun r => failsWith_ok _
        · exact faulty_syntactic _
      · exact faulty_syntactic _
      · exact faulty_syntactic _
      · exact faulty_syntactic _
    | _ => exact faulty_syntactic _

/-! ## Entries that are not read -/

/-- The values under `value`, if there are any, are the same, or they are objects with the
same entries under the names of the three slots. -/
inductive AlikePayload : Option Json → Option Json → Prop
  | same (v : Option Json) : AlikePayload v v
  | slots {payload payload' : List (String × Json)} :
    (∀ slot : Slot, Fields.get? slot.name payload = Fields.get? slot.name payload') →
    AlikePayload (some (.object payload)) (some (.object payload'))

/-- The values, if there are any, differ at most in what is not read: in entries of a payload
under other names than those of the slots, and in entries of a node under other names than
`type`, `value` and, where the type is that of a combination, `left` and `right`. -/
inductive Alike : Option Json → Option Json → Prop
  | same (v : Option Json) : Alike v v
  | node {members members' : List (String × Json)} :
    Fields.get? "type" members = Fields.get? "type" members' →
    AlikePayload (Fields.get? "value" members) (Fields.get? "value" members') →
    (Fields.get? "type" members = some (.string "operator") → ∀ side : Side,
      Alike (Fields.get? side.name members) (Fields.get? side.name members')) →
    Alike (some (.object members)) (some (.object members'))

theorem ofPayload_congr {payload payload' : List (String × Json)}
    (h : ∀ slot : Slot, Fields.get? slot.name payload = Fields.get? slot.name payload') :
    ofPayload (.object payload) = ofPayload (.object payload') := by
  simp only [ofPayload, slotText, literalText, h]

theorem ofChild_congr {read : Json → Except Error Rule}
    (hread : ∀ j j', Alike (some j) (some j') → read j = read j') {side : Side}
    {members members' : List (String × Json)}
    (h : Alike (Fields.get? side.name members) (Fields.get? side.name members')) :
    ofChild read side members = ofChild read side members' := by
  unfold ofChild
  generalize Fields.get? side.name members = v at h
  generalize Fields.get? side.name members' = v' at h
  cases h with
  | same => rfl
  | @node ms ms' htype hvalue hsides =>
    exact hread (.object ms) (.object ms') (.node htype hvalue hsides)

/-- What is not read has no effect, neither on the rule nor on the fault. -/
theorem ofNode_congr {limit levels : Nat} {j j' : Json} (h : Alike (some j) (some j')) :
    ofNode limit levels j = ofNode limit levels j' := by
  induction levels generalizing j j' with
  | zero => rw [ofNode, ofNode]
  | succ levels ih =>
    cases h with
    | same => rfl
    | @node ms ms' htype hvalue hsides =>
      -- the type is the same, so both are read by the same branch
      rw [ofNode, ofNode, ← htype]
      generalize Fields.get? "value" ms = v at hvalue
      generalize Fields.get? "value" ms' = v' at hvalue
      split
      · cases hvalue with
        | same => rfl
        | slots hslots =>
          dsimp only
          rw [ofPayload_congr hslots]
      · next hoperator =>
        cases hvalue with
        | same =>
          rw [ofChild_congr (fun _ _ => ih) (hsides hoperator .left),
            ofChild_congr (fun _ _ => ih) (hsides hoperator .right)]
        | slots => rfl -- an object is no connective, whatever is in it
      · rfl
      · rfl
      · rfl

/-! ## The answer -/

theorem ofMapping_of_node {limit : Nat} {j : Json} (hnull : j ≠ .null) (hempty : j ≠ .object []) :
    ofMapping limit j = (ofNode limit limit j).map some := by
  unfold ofMapping
  split
  · exact absurd rfl hnull
  · exact absurd rfl hempty
  · rfl

theorem ofMapping_eq_none_iff {limit : Nat} {j : Json} :
    ofMapping limit j = .ok none ↔ j = .null ∨ j = .object [] := by
  constructor
  · intro h
    by_cases hnull : j = .null
    · exact .inl hnull
    · by_cases hempty : j = .object []
      · exact .inr hempty
      · rw [ofMapping_of_node hnull hempty] at h
        obtain ⟨t, -, hnone⟩ := map_eq_ok_iff.1 h
        cases hnone
  · rintro (rfl | rfl)
    · rfl
    · rfl

theorem ofMapping_eq_some_iff {limit : Nat} {j : Json} {t : Rule} :
    ofMapping limit j = .ok (some t) ↔ Denotes limit j t := by
  by_cases hnone : j = .null ∨ j = .object []
  · rw [ofMapping_eq_none_iff.2 hnone]
    constructor
    · rintro ⟨⟩
    · intro h
      rcases hnone with rfl | rfl
      · exact absurd h (not_denotes_null limit t)
      · exact absurd h (not_denotes_empty limit t)
  · obtain ⟨hnull, hempty⟩ := not_or.1 hnone
    rw [ofMapping_of_node hnull hempty, map_eq_ok_iff]
    constructor
    · rintro ⟨u, hu, hsome⟩
      obtain rfl : u = t := Option.some.inj hsome
      exact ofNode_eq_ok_iff.1 hu
    · intro h
      exact ⟨t, ofNode_eq_ok_iff.2 h, rfl⟩

/-- What is not read has no effect in the answer either, except that only an object without
any entries is no rule. -/
theorem ofMapping_congr {limit : Nat} {j j' : Json} (h : Alike (some j) (some j'))
    (hempty : j ≠ .object []) (hempty' : j' ≠ .object []) :
    ofMapping limit j = ofMapping limit j' := by
  cases h with
  | same => rfl
  | @node ms ms' htype hvalue hsides =>
    rw [ofMapping_of_node (fun h => by cases h) hempty,
      ofMapping_of_node (fun h => by cases h) hempty',
      ofNode_congr (.node htype hvalue hsides)]

theorem ofMapping_syntactic (limit : Nat) (j : Json) :
    FailsWith IsSyntactic (ofMapping limit j) := by
  unfold ofMapping
  split
  · exact failsWith_ok _
  · exact failsWith_ok _
  · exact (ofNode_syntactic limit limit _).map some

/-- **The mapping form.**  The null value and the empty object, and no others, are no rule.
A value is read as a rule exactly when it denotes that rule within the limit, and every
value that denotes none is refused for a fault of syntax.  Entries that are not read, at
whatever level, change no answer.  A rule that was read is within the limit, so it comes
back from its own mapping form. -/
theorem ofMapping_characterization (limit : Nat) (j : Json) :
    (ofMapping limit j = .ok none ↔ j = .null ∨ j = .object []) ∧
    (∀ t, ofMapping limit j = .ok (some t) ↔ Denotes limit j t) ∧
    (j ≠ .null → j ≠ .object [] → (¬ ∃ t, Denotes limit j t) →
      ∃ fault, ofMapping limit j = .error (.badSyntax fault)) ∧
    (∀ j', Alike (some j) (some j') → j ≠ .object [] → j' ≠ .object [] →
      ofMapping limit j = ofMapping limit j') ∧
    ∀ t, ofMapping limit j = .ok (some t) →
      t.depth ≤ limit ∧ ofMapping limit t.toMapping = .ok (some t) := by
  refine ⟨ofMapping_eq_none_iff, fun t => ofMapping_eq_some_iff, ?_, ?_, ?_⟩
  · intro hnull hempty hnone
    cases hread : ofMapping limit j with
    | ok t? =>
      cases t? with
      | none => exact absurd (ofMapping_eq_none_iff.1 hread) (not_or.2 ⟨hnull, hempty⟩)
      | some t => exact absurd ⟨t, ofMapping_eq_some_iff.1 hread⟩ hnone
    | error e =>
      obtain ⟨fault, rfl⟩ := ofMapping_syntactic limit j e hread
      exact ⟨fault, rfl⟩
  · intro j' h hempty hempty'
    exact ofMapping_congr h hempty hempty'
  · intro t h
    have hdepth : t.depth ≤ limit := (ofMapping_eq_some_iff.1 h).depth_le
    refine ⟨hdepth, ?_⟩
    rw [ofMapping_toMapping, if_pos hdepth]

-- The empty object is no rule where it stands alone, but a fault as a sub-rule.
example : ofMapping 2 (.object [("left", toMapping (condition ⟨"a", "=", "1"⟩)),
    ("right", .object []), ("type", .string "operator"), ("value", .string "AND")]) =
      .error (.badSyntax (.node .noType)) := rfl

end RecordRules.Rule

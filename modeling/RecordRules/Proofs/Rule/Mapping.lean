import RecordRules.Proofs.Answer
import RecordRules.Rule.Mapping

/-!
# The mapping form is read back

Every rule, whatever its texts, comes back from its mapping form when it is no
deeper than the limit, and is refused for its nesting when it is deeper.

    ofMapping limit t.toMapping =
      if t.depth ≤ limit then ok (some t) else error tooDeep              (ofMapping_toMapping)
-/

namespace RecordRules.Rule

/-- The mapping form of a rule is an object with members, so it is never taken for none. -/
theorem toMapping_eq_object (t : Rule) : ∃ p ps, t.toMapping = .object (p :: ps) := by
  cases t with
  | condition c => exact ⟨_, _, rfl⟩
  | combine op l r => exact ⟨_, _, rfl⟩

/-- A sub-rule in its mapping form is handed to the reader. -/
theorem ofChild_toMapping (read : Json → Except Error Rule) (side : Side)
    (members : List (String × Json)) (t : Rule)
    (h : Fields.get? side.name members = some t.toMapping) :
    ofChild read side members = read t.toMapping := by
  obtain ⟨p, ps, hobject⟩ := toMapping_eq_object t
  rw [ofChild, h, hobject]

theorem ofNode_toMapping (limit : Nat) (t : Rule) (levels : Nat) :
    ofNode limit levels t.toMapping =
      if t.depth ≤ levels then .ok t else .error (.nestedTooDeep limit) := by
  induction t generalizing levels with
  | condition c =>
    cases levels with
    | zero => rw [ofNode, if_neg (by simp [depth])]
    | succ levels =>
      rw [if_pos (by simp [depth])]
      rfl
  | combine op l r ihl ihr =>
    cases levels with
    | zero => rw [ofNode, if_neg (by simp [depth])]
    | succ levels =>
      let members := [("left", l.toMapping), ("right", r.toMapping), ("type", .string "operator"),
        ("value", .string op)]
      have hl := ofChild_toMapping (ofNode limit levels) .left members l rfl
      have hr := ofChild_toMapping (ofNode limit levels) .right members r rfl
      have hstep : ofNode limit (levels + 1) (combine op l r).toMapping =
          (ofNode limit levels l.toMapping >>= fun a =>
            ofNode limit levels r.toMapping >>= fun b => .ok (combine op a b)) := by
        rw [← hl, ← hr]
        rfl
      rw [hstep, ihl, ihr, depth]
      by_cases hdl : l.depth ≤ levels
      · by_cases hdr : r.depth ≤ levels
        · rw [if_pos hdl, if_pos hdr, if_pos (by omega), ok_bind, ok_bind]
        · rw [if_pos hdl, if_neg hdr, if_neg (by omega), ok_bind, error_bind]
      · rw [if_neg hdl, error_bind, if_neg (by omega)]

theorem ofMapping_toMapping (limit : Nat) (t : Rule) :
    ofMapping limit t.toMapping =
      if t.depth ≤ limit then .ok (some t) else .error (.nestedTooDeep limit) := by
  obtain ⟨p, ps, hobject⟩ := toMapping_eq_object t
  have hnode : ofMapping limit t.toMapping = (ofNode limit limit t.toMapping).map some := by
    rw [hobject]; rfl
  rw [hnode, ofNode_toMapping]
  split <;> rfl

/-- **Exchange.**  Every rule within the limit, whatever its texts and connectives, comes
back from its mapping form; a deeper one is refused as a fault of syntax, its nesting. -/
theorem ofMapping_toMapping_by_depth (limit : Nat) (t : Rule) :
    (t.depth ≤ limit → ofMapping limit t.toMapping = .ok (some t)) ∧
    (limit < t.depth →
      ofMapping limit t.toMapping = .error (.badSyntax (.tooDeep limit))) ∧
    (SyntaxFault.tooDeep limit).message =
      "Rule nesting exceeds maximum depth of " ++ toString limit := by
  rw [ofMapping_toMapping]
  refine ⟨fun hdepth => if_pos hdepth, fun hdepth => if_neg ?_, rfl⟩
  omega

end RecordRules.Rule

import RecordRules.Config
import RecordRules.Proofs.Json.RoundTrip
import RecordRules.Proofs.Rule.Mapping

/-!
# The mapping form as text

The mapping form of a rule nests one level deeper than the rule, since the texts
of a condition are an object inside that of the condition.  Its text is read back
whatever characters the texts of the rule hold, up to the limit of nesting.  So of the
127 levels of JSON text a rule may take up 126, and from there on the limit of the
reader decides:

    read? t.toJsonText = some t.toMapping.document
    t.toMapping.document.value? levels =
      if t.depth + 1 ≤ levels then some t.toMapping else none
    ofJsonText limit t.toJsonText =
      if t.depth ≤ 126 then ofMapping limit t.toMapping else error malformed
-/

namespace RecordRules.Rule

open Json

theorem canonical_payload (c : Condition) : (payload c).Canonical := by
  have hkeys : ["field", "operator", "value"].Pairwise (· < ·) := by decide
  refine .object (Fields.sorted_iff_keys.2 hkeys) fun p hp => ?_
  simp only [List.mem_cons, List.not_mem_nil, or_false] at hp
  rcases hp with rfl | rfl | rfl
  · exact .string c.field
  · exact .string c.operator
  · exact .string c.value

theorem canonical_toMapping (t : Rule) : t.toMapping.Canonical := by
  have hkeys : ["left", "right", "type", "value"].Pairwise (· < ·) := by decide
  induction t with
  | condition c =>
    refine .object (Fields.sorted_iff_keys.2 hkeys) fun p hp => ?_
    simp only [List.mem_cons, List.not_mem_nil, or_false] at hp
    rcases hp with rfl | rfl | rfl | rfl
    · exact .null
    · exact .null
    · exact .string "operand"
    · exact canonical_payload c
  | combine op l r ihl ihr =>
    refine .object (Fields.sorted_iff_keys.2 hkeys) fun p hp => ?_
    simp only [List.mem_cons, List.not_mem_nil, or_false] at hp
    rcases hp with rfl | rfl | rfl | rfl
    · exact ihl
    · exact ihr
    · exact .string "operator"
    · exact .string op

theorem nesting_toMapping (t : Rule) : t.toMapping.nesting = t.depth + 1 := by
  induction t with
  | condition c => rfl
  | combine op l r ihl ihr =>
    show max l.toMapping.nesting (max r.toMapping.nesting 0) + 1 = _
    rw [ihl, ihr, depth]
    omega

theorem read?_toJsonText (t : Rule) : Document.read? t.toJsonText = some t.toMapping.document :=
  read?_render t.canonical_toMapping

theorem value?_toMapping (t : Rule) (levels : Nat) :
    t.toMapping.document.value? levels =
      if t.depth + 1 ≤ levels then some t.toMapping else none := by
  rw [value?_document t.canonical_toMapping, nesting_toMapping]

/-! ## The text as a rule -/

theorem parse_toJsonText (t : Rule) :
    Json.parse t.toJsonText = if t.depth ≤ 126 then .ok t.toMapping else .error .malformedJson := by
  have hparse : parse? t.toJsonText =
      if t.toMapping.nesting ≤ nestingLimit then some t.toMapping else none :=
    parse?_render t.canonical_toMapping
  have hlevels : t.depth + 1 ≤ nestingLimit ↔ t.depth ≤ 126 := Nat.add_le_add_iff_right
  rw [Json.parse, hparse, nesting_toMapping]
  by_cases hdepth : t.depth ≤ 126
  · rw [if_pos (hlevels.2 hdepth), if_pos hdepth]
  · rw [if_neg (mt hlevels.1 hdepth), if_neg hdepth]

/-- The text of a rule meets two limits, that of JSON text before that of the reader. -/
theorem ofJsonText_toJsonText (limit : Nat) (t : Rule) :
    ofJsonText limit t.toJsonText =
      if t.depth ≤ 126 then
        if t.depth ≤ limit then .ok (some t) else .error (.nestedTooDeep limit)
      else .error .malformedJson := by
  rw [ofJsonText, parse_toJsonText]
  by_cases hdepth : t.depth ≤ 126
  · rw [if_pos hdepth, if_pos hdepth, ok_bind, ofMapping_toMapping]
  · rw [if_neg hdepth, if_neg hdepth, error_bind]

/-- **Text of a rule.**  Under the default limit, the JSON text of every rule up to that
limit is read back as the rule, whatever characters its texts hold.  A rule of up to 126
levels is still JSON text that can be read, and refused for its nesting as a rule; a
deeper one is malformed as JSON text. -/
theorem ofJsonText_toJsonText_by_depth (t : Rule) :
    (t.depth ≤ 120 →
      ofJsonText Config.defaultDepthLimit t.toJsonText = .ok (some t)) ∧
    (121 ≤ t.depth → t.depth ≤ 126 →
      ofJsonText Config.defaultDepthLimit t.toJsonText = .error (.badSyntax (.tooDeep 120))) ∧
    (127 ≤ t.depth →
      ofJsonText Config.defaultDepthLimit t.toJsonText = .error (.badSyntax .malformedJson)) ∧
    (SyntaxFault.tooDeep 120).message = "Rule nesting exceeds maximum depth of 120" := by
  rw [ofJsonText_toJsonText, Config.defaultDepthLimit]
  refine ⟨?_, ?_, ?_, by decide⟩
  · intro hdepth
    rw [if_pos (by omega), if_pos hdepth]
  · intro hlow hhigh
    rw [if_pos hhigh, if_neg (by omega)]
  · intro hdepth
    rw [if_neg (by omega)]

end RecordRules.Rule

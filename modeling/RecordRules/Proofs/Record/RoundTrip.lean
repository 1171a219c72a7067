import RecordRules.Proofs.Answer
import RecordRules.Proofs.Json.Number
import RecordRules.Proofs.Record.Routes

/-!
# Written records are read back

The text of a record is an object with a member for each field.  An integer and a text
come back as they are, and a finite number as a number near it, with the same sign: few
steps away, and none where its numeral is short (`FieldValue.ReadBack`).  A number that
is not finite is written as `null`, and then the record is refused.  A text may give the
fields in any order (`Record.IsText`), and every text of a record has the same answer:

    every number is finite → r.IsText text → Record.parse text = ok s,
                                             the fields of s read back from r's
    otherwise              → r.IsText text → Record.parse text = error (Invalid record)
                                                                (Record.toJsonText_roundTrip)

The number that comes back need not be the one that was written
(`Record.toJsonText_changes_number`).
-/

namespace RecordRules

open Json Document

/-- A value other than a number that is not finite. -/
def FieldValue.isFinite : FieldValue → Bool
  | number x => x.isFinite
  | integer _ | text _ => true

/-- What comes back of a value that was written. -/
inductive FieldValue.ReadBack : FieldValue → FieldValue → Prop
  | integer (n : Int64) : ReadBack (integer n) (integer n)
  | number {w : Decimal.Numeral} {x y : Binary64}
      (hw : Lexeme.ofNumeral? (Decimal.Layout.json.text x) = some (.number w)) (h : Near w y x) :
      ReadBack (number x) (number y)
  | text (s : String) : ReadBack (text s) (text s)

/-- Whether no number among the fields is infinite or no number at all. -/
def Record.isFinite (r : Record) : Bool := r.fields.all fun p => p.2.isFinite

/-! ## One value -/

namespace FieldValue

theorem toJson_number {x : Binary64} (hx : x.isFinite = true) :
    (number x).toJson = .number (.float x) := if_pos hx

theorem toJson_of_not_finite {v : FieldValue} (h : v.isFinite = false) : v.toJson = .null := by
  cases v with
  | number x => exact if_neg (by simpa [isFinite] using h)
  | integer | text => cases h

/-- The document of a finite number, and the number that is read of it. -/
theorem exists_document_number {x : Binary64} (hx : x.isFinite = true) :
    ∃ w y, read? (String.ofList (Number.float x).write) = some (.number w) ∧
      Lexeme.ofNumeral? (Decimal.Layout.json.text x) = some (.number w) ∧
      Number.ofNumeral? w = some (.float y) ∧ Near w y x := by
  obtain ⟨w, y, hw, hread, hy, hnear⟩ := exists_near hx
  have hwrite : (Number.float x).write = Decimal.Layout.json.text x := if_pos hx
  exact ⟨w, y, hwrite ▸ hread, hw, hy, hnear⟩

theorem canonical_integer (n : Int64) : (integer n).toJson.Canonical := .number (readable_integer n)

theorem reads_toJson (v : FieldValue) : v.toJson.Reads := by
  by_cases hv : v.isFinite = true
  · cases v with
    | integer n => exact (canonical_integer n).reads
    | text s => exact (Canonical.string s).reads
    | number x =>
      obtain ⟨w, y, hread, -⟩ := exists_document_number hv
      rw [toJson_number hv]
      exact reads_number hread
  · rw [toJson_of_not_finite (by simpa using hv)]
    exact Canonical.null.reads

/-- The field value of the integer that is read. -/
theorem writes_integer (n : Int64) : Writes (.number (.integer n.toInt)) (integer n) := by
  have hbounds : (Int64.minValue.toInt ≤ n.toInt && n.toInt ≤ Int64.maxValue.toInt) = true := by
    simp only [Bool.and_eq_true, decide_eq_true_iff]
    exact ⟨Int64.minValue_le_toInt n, Int64.toInt_le n⟩
  show some (ofNumber (.integer n.toInt)) = _
  rw [ofNumber, if_pos hbounds, Int64.ofInt_toInt]

theorem exists_readBack {v : FieldValue} (hv : v.isFinite = true) (levels : Nat) :
    ∃ j v', v.toJson.document.value? levels = some j ∧ Writes j v' ∧ ReadBack v v' := by
  cases v with
  | integer n =>
    have hvalue := value?_document (canonical_integer n) levels
    rw [if_pos (show (integer n).toJson.nesting ≤ levels from Nat.zero_le levels)] at hvalue
    exact ⟨_, _, hvalue, writes_integer n, .integer n⟩
  | text s =>
    have hvalue := value?_document (Canonical.string s) levels
    rw [if_pos (show (Json.string s).nesting ≤ levels from Nat.zero_le levels)] at hvalue
    exact ⟨_, _, hvalue, rfl, .text s⟩
  | number x =>
    obtain ⟨w, y, hread, hw, hy, hnear⟩ := exists_document_number hv
    have hdocument : (number x).toJson.document = .number w := by
      rw [toJson_number hv, document, Number.document, hread, Option.getD_some]
    refine ⟨.number (.float y), .number y, ?_, rfl, .number hw hnear⟩
    rw [hdocument, value?, hy]
    rfl

end FieldValue

/-! ## All fields -/

namespace Fields

variable {α β : Type} {R : α → β → Prop} {fs : List (String × α)} {gs : List (String × β)}

theorem keys_eq_of_forall₂ (h : List.Forall₂ (Related R) fs gs) :
    fs.map Prod.fst = gs.map Prod.fst := by
  induction h with
  | nil => rfl
  | cons hpq _ ih => exact congrArg₂ List.cons hpq.1 ih

theorem Sorted.of_forall₂ (hfs : Sorted fs) (h : List.Forall₂ (Related R) fs gs) : Sorted gs := by
  rw [sorted_iff_keys] at hfs ⊢
  rwa [← keys_eq_of_forall₂ h]

end Fields

namespace Record

/-- The value of a member is that of the field it was written for. -/
def MemberValue (levels : Nat) (v : FieldValue) (j : Json) : Prop :=
  v.toJson.document.value? levels = some j

theorem exists_memberValue (v : FieldValue) (levels : Nat) : ∃ j, MemberValue levels v j := by
  by_cases hv : v.isFinite = true
  · obtain ⟨j, -, hvalue, -⟩ := FieldValue.exists_readBack hv levels
    exact ⟨j, hvalue⟩
  · refine ⟨.null, ?_⟩
    rw [MemberValue, FieldValue.toJson_of_not_finite (by simpa using hv)]
    rfl

theorem exists_memberValues (fields : List (String × FieldValue)) (levels : Nat) :
    ∃ pairs, List.Forall₂ (Fields.Related (MemberValue levels)) fields pairs := by
  induction fields with
  | nil => exact ⟨[], .nil⟩
  | cons p fields ih =>
    obtain ⟨j, hj⟩ := exists_memberValue p.2 levels
    obtain ⟨pairs, hrelated⟩ := ih
    exact ⟨(p.1, j) :: pairs, .cons ⟨rfl, hj⟩ hrelated⟩

theorem pairs?_of_memberValues {levels : Nat} {fields : List (String × FieldValue)}
    {pairs : List (String × Json)}
    (h : List.Forall₂ (Fields.Related (MemberValue levels)) fields pairs) :
    pairs? levels (memberDocuments (fields.map fun p => (p.1, p.2.toJson))) = some pairs := by
  induction h with
  | nil => rfl
  | @cons p q fields pairs hpq _ ih =>
    have hvalue := hpq.2
    rw [MemberValue] at hvalue
    rw [List.map_cons, memberDocuments, pairs?, string?_partsOf, hvalue, ih, hpq.1]
    rfl

/-- The text of fields is read as the object of their members, whatever their order. -/
theorem parse_render_objectOf {fields : List (String × FieldValue)} {pairs : List (String × Json)}
    (h : List.Forall₂ (Fields.Related (MemberValue 126)) fields pairs) :
    parse (objectOf fields).render = ofJson (.object (Fields.insertAll [] pairs)) := by
  have hread : read? (objectOf fields).render = some (objectOf fields).document := by
    apply Reads.read?_render
    apply reads_object
    intro p hp
    obtain ⟨q, -, rfl⟩ := List.mem_map.1 hp
    exact q.2.reads_toJson
  have hvalue : Json.parse? (objectOf fields).render =
      some (.object (Fields.insertAll [] pairs)) := by
    rw [parse?, hread]
    show (pairs? 126 _).map _ = _
    rw [pairs?_of_memberValues h]
    rfl
  rw [parse, Json.parse, hvalue]
  rfl

/-- A text of the record: its fields as the members of an object, in some order. -/
def IsText (r : Record) (text : String) : Prop :=
  ∃ fields : List (String × FieldValue), fields.Perm r.fields ∧ text = (objectOf fields).render

/-- All texts of a record are read as one object. -/
theorem IsText.parse_eq {r : Record} {pairs : List (String × Json)}
    (h : List.Forall₂ (Fields.Related (MemberValue 126)) r.fields pairs) {text : String}
    (htext : r.IsText text) : parse text = ofJson (.object pairs) := by
  obtain ⟨fields, hperm, rfl⟩ := htext
  -- the members are rearranged as the fields are
  obtain ⟨members, hmembers, hrearranged⟩ := List.perm_comp_forall₂ hperm h
  have hsorted : Fields.Sorted pairs := r.sorted.of_forall₂ h
  have hkeys : (members.map Prod.fst).Nodup :=
    (hrearranged.map Prod.fst).nodup_iff.2 hsorted.nodup_keys
  rw [parse_render_objectOf hmembers, Fields.insertAll_perm .nil hrearranged hkeys,
    hsorted.insertAll_eq]

/-- Fields that have a form of their own are written by the values of their members. -/
theorem exists_insertions {levels : Nat} {fields : List (String × FieldValue)}
    {pairs : List (String × Json)}
    (h : List.Forall₂ (Fields.Related (MemberValue levels)) fields pairs)
    (hfinite : ∀ p ∈ fields, p.2.isFinite = true) :
    ∃ insertions, List.Forall₂ (Fields.Related Writes) pairs insertions ∧
      List.Forall₂ (Fields.Related FieldValue.ReadBack) fields insertions := by
  induction h with
  | nil => exact ⟨[], .nil, .nil⟩
  | @cons p q fields pairs hpq _ ih =>
    obtain ⟨hp, hfinite⟩ := List.forall_mem_cons.1 hfinite
    obtain ⟨j, v, hvalue, hwrites, hback⟩ := FieldValue.exists_readBack hp levels
    obtain ⟨insertions, hpairs, hfields⟩ := ih hfinite
    obtain rfl : q.2 = j := Option.some.inj (hpq.2.symm.trans hvalue)
    exact ⟨(p.1, v) :: insertions, .cons ⟨hpq.1.symm, hwrites⟩ hpairs, .cons ⟨rfl, hback⟩ hfields⟩

/-- A field without a form of its own is a member that writes no field. -/
theorem mapM_ofMember?_eq_none {levels : Nat} {fields : List (String × FieldValue)}
    {pairs : List (String × Json)}
    (h : List.Forall₂ (Fields.Related (MemberValue levels)) fields pairs)
    (hfinite : ∃ p ∈ fields, p.2.isFinite = false) : pairs.mapM ofMember? = none := by
  induction h with
  | nil => simp at hfinite
  | @cons p q fields pairs hpq _ ih =>
    rw [List.mapM_cons]
    obtain ⟨field, hmem, hfield⟩ := hfinite
    rcases List.mem_cons.1 hmem with rfl | hmem
    · have hnull : q.2 = .null := by
        have hvalue := hpq.2
        rw [MemberValue, FieldValue.toJson_of_not_finite hfield] at hvalue
        exact (Option.some.inj hvalue).symm
      rw [ofMember?, hnull]
      rfl
    · rw [ih ⟨field, hmem, hfield⟩]
      cases ofMember? q <;> rfl

/-- **A record is read back from its text, number by number nearly, or refused.**  The order
in which the text gives the fields is of no account. -/
theorem toJsonText_roundTrip (r : Record) :
    r.IsText r.toJsonText ∧
    if r.isFinite then
      ∃ s, (∀ text, r.IsText text → parse text = .ok s) ∧
        List.Forall₂ (Fields.Related FieldValue.ReadBack) r.fields s.fields
    else ∀ text, r.IsText text → parse text = .error (.badSyntax (.record .badFieldValue)) := by
  refine ⟨⟨r.fields, .refl _, rfl⟩, ?_⟩
  obtain ⟨pairs, hrelated⟩ := exists_memberValues r.fields 126
  have hsorted : Fields.Sorted pairs := r.sorted.of_forall₂ hrelated
  split
  · next hfinite =>
    obtain ⟨insertions, hwrites, hback⟩ := exists_insertions hrelated (List.all_eq_true.1 hfinite)
    refine ⟨ofList insertions, fun text htext => ?_, ?_⟩
    · rw [htext.parse_eq hrelated, ← ofJson_insertAll hwrites, hsorted.insertAll_eq]
    · have hfields : (ofList insertions).fields = insertions :=
        (r.sorted.of_forall₂ hback).insertAll_eq
      rwa [hfields]
  · next hfinite =>
    intro text htext
    have hnot : ∃ p ∈ r.fields, p.2.isFinite = false := by
      simpa [isFinite] using hfinite
    rw [htext.parse_eq hrelated, ofJson, mapM_ofMember?_eq_none hrelated hnot]

/-- The greatest odd number of 53 bits is written with a point, so as a significand of 57
bits, and loses its last bit. -/
theorem toJsonText_changes_number :
    (ofList [("x", .number ⟨0x433fffffffffffff⟩)]).isFinite = true ∧
      parse (ofList [("x", .number ⟨0x433fffffffffffff⟩)]).toJsonText =
        .ok (ofList [("x", .number ⟨0x433ffffffffffffe⟩)]) ∧
      ofList [("x", .number ⟨0x433ffffffffffffe⟩)] ≠
        ofList [("x", .number ⟨0x433fffffffffffff⟩)] := by
  have hparse : (parse (ofList [("x", .number ⟨0x433fffffffffffff⟩)]).toJsonText).toOption =
      some (ofList [("x", .number ⟨0x433ffffffffffffe⟩)]) := by decide +kernel
  exact ⟨by decide, toOption_eq_some_iff.1 hparse, by decide⟩

end Record

end RecordRules

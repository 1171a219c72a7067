import RecordRules.Proofs.Json.Document

/-!
# Written values are read back

A value is canonical when the members of its objects are in the order of their
keys and its numbers are read back from their text.  The text of a canonical
value is a document, and that document has the value again unless it nests
deeper than there are levels:

    resume (value stack) (writeBefore rest j) = resume (complete stack j.document) rest
    j.document.value? levels = if j.nesting ≤ levels then some j else none
    parse? j.render = if j.nesting ≤ 127 then some j else none

Scalars nest to no level; an array or object nests one level deeper than what
it holds.
-/

namespace RecordRules.Json

/-! ## Documents of values -/

/-- The document that the text of a number is. -/
def Number.document (x : Number) : Document :=
  (Document.read? (String.ofList x.write)).getD .null

/-- The number is read back from its text. -/
def Number.Readable (x : Number) : Prop := parse? (String.ofList x.write) = some (.number x)

mutual

/-- The document that the text of a value is. -/
def document : Json → Document
  | .null => .null
  | .bool b => .bool b
  | .number x => x.document
  | .string s => .string (partsOf s)
  | .array items => .array (documents items)
  | .object members => .object (memberDocuments members)

/-- The documents of the items of an array. -/
def documents : List Json → List Document
  | [] => []
  | item :: items => document item :: documents items

/-- The keys and documents of the members of an object. -/
def memberDocuments : List (String × Json) → List (List StringPart × Document)
  | [] => []
  | (key, value) :: members => (partsOf key, document value) :: memberDocuments members

end

mutual

/-- The number of levels to which the arrays and objects of a value nest. -/
def nesting : Json → Nat
  | .null | .bool _ | .number _ | .string _ => 0
  | .array items => itemsNesting items + 1
  | .object members => membersNesting members + 1

/-- The levels to which the items of an array nest. -/
def itemsNesting : List Json → Nat
  | [] => 0
  | item :: items => max (nesting item) (itemsNesting items)

/-- The levels to which the members of an object nest. -/
def membersNesting : List (String × Json) → Nat
  | [] => 0
  | (_, value) :: members => max (nesting value) (membersNesting members)

end

/-- Objects hold their members in the order of the keys, and numbers are read back. -/
inductive Canonical : Json → Prop
  | null : Canonical .null
  | bool (b : Bool) : Canonical (.bool b)
  | number {x : Number} (h : x.Readable) : Canonical (.number x)
  | string (s : String) : Canonical (.string s)
  | array {items : List Json} (h : ∀ item ∈ items, Canonical item) : Canonical (.array items)
  | object {members : List (String × Json)} (hsorted : Fields.Sorted members)
      (h : ∀ p ∈ members, Canonical p.2) : Canonical (.object members)

open Document State

theorem Number.Readable.read?_write {x : Number} (h : x.Readable) :
    read? (String.ofList x.write) = some x.document := by
  obtain ⟨d, hread, -⟩ := Option.bind_eq_some_iff.1 h
  rw [Number.document, hread, Option.getD_some]

theorem Number.Readable.value?_document {x : Number} (h : x.Readable) :
    x.document.value? nestingLimit = some (.number x) := by
  have hvalue : read? (String.ofList x.write) >>= value? nestingLimit = some (.number x) := h
  rw [h.read?_write] at hvalue
  exact hvalue

/-! ## Reading the text -/

/-- The text of the value is its document, wherever a value may come. -/
def Reads (j : Json) : Prop :=
  ∀ {state : State} {stack : List Frame} {rest : List Char}, state.Enters stack →
    Delimiting rest →
    state.resume (writeBefore rest j) = State.resume (.complete stack j.document) rest

/-- A word or a number on its own. -/
theorem resume_word {word : List Char} {l : Lexeme} (hword : lexemes? word = some [l])
    {state next : State} (hstep : state.step l = some next) {rest : List Char}
    (hrest : Delimiting rest) : state.resume (word ++ rest) = next.resume rest := by
  rw [State.resume_append hword hrest, List.foldlM_cons, hstep]
  rfl

theorem delimiting_writeItems (rest : List Char) (items : List Json) :
    Delimiting (writeItems rest items) := by
  cases items with
  | nil => exact mark_closeArray.delimiting _
  | cons item items => exact mark_comma.delimiting _

theorem delimiting_writeMembers (rest : List Char) (members : List (String × Json)) :
    Delimiting (writeMembers rest members) := by
  cases members with
  | nil => exact mark_closeObject.delimiting _
  | cons p members => exact mark_comma.delimiting _

/-- After an item, the items that are still to come. -/
theorem resume_writeItems {items : List Json} (h : ∀ item ∈ items, item.Reads)
    (stack : List Frame) (done : List Document) (v : Document) (rest : List Char) :
    State.resume (.complete (.array done :: stack) v) (writeItems rest items) =
      State.resume (.complete stack (.array (done.reverse ++ v :: documents items))) rest := by
  induction items generalizing done v with
  | nil =>
    rw [writeItems, State.resume_mark mark_closeArray]
    show State.resume (.complete stack (.array (v :: done).reverse)) rest = _
    rw [List.reverse_cons]
    rfl
  | cons item items ih =>
    rw [writeItems, State.resume_mark mark_comma]
    show State.resume (.value (.array (v :: done) :: stack)) _ = _
    rw [h item List.mem_cons_self (enters_value _) (delimiting_writeItems rest items),
      ih fun other hother => h other (List.mem_cons_of_mem _ hother)]
    rw [List.reverse_cons, List.append_assoc, documents]
    rfl

/-- After a member, the members that are still to come. -/
theorem resume_writeMembers {members : List (String × Json)} (h : ∀ p ∈ members, p.2.Reads)
    (stack : List Frame) (done : Members) (k : List StringPart) (v : Document)
    (rest : List Char) :
    State.resume (.complete (.object done k :: stack) v) (writeMembers rest members) =
      State.resume
        (.complete stack (.object (done.reverse ++ (k, v) :: memberDocuments members))) rest := by
  induction members generalizing done k v with
  | nil =>
    rw [writeMembers, State.resume_mark mark_closeObject]
    show State.resume (.complete stack (.object ((k, v) :: done).reverse)) rest = _
    rw [List.reverse_cons]
    rfl
  | cons p members ih =>
    obtain ⟨name, value⟩ := p
    rw [writeMembers, List.cons_append, State.resume_mark mark_comma]
    show State.resume (.key stack ((k, v) :: done)) _ = _
    rw [State.resume_key rfl,
      h (name, value) List.mem_cons_self (enters_value _) (delimiting_writeMembers rest members),
      ih fun other hother => h other (List.mem_cons_of_mem _ hother)]
    rw [List.reverse_cons, List.append_assoc, memberDocuments]
    rfl

theorem reads_array {items : List Json} (h : ∀ item ∈ items, item.Reads) :
    (Json.array items).Reads := by
  intro state stack rest hstate hrest
  cases items with
  | nil =>
    rw [writeBefore, State.resume_mark mark_openArray, hstate _ (by simp)]
    show State.resume (.firstItem stack) _ = _
    rw [State.resume_mark mark_closeArray]
    rfl
  | cons item items =>
    rw [writeBefore, State.resume_mark mark_openArray, hstate _ (by simp)]
    show State.resume (.firstItem stack) _ = _
    rw [h item List.mem_cons_self (enters_firstItem stack) (delimiting_writeItems rest items),
      resume_writeItems fun other hother => h other (List.mem_cons_of_mem _ hother)]
    rfl

theorem reads_object {members : List (String × Json)} (h : ∀ p ∈ members, p.2.Reads) :
    (Json.object members).Reads := by
  intro state stack rest hstate hrest
  cases members with
  | nil =>
    rw [writeBefore, State.resume_mark mark_openObject, hstate _ (by simp)]
    show State.resume (.firstKey stack) _ = _
    rw [State.resume_mark mark_closeObject]
    rfl
  | cons p members =>
    obtain ⟨name, value⟩ := p
    rw [writeBefore, List.cons_append, State.resume_mark mark_openObject, hstate _ (by simp)]
    show State.resume (.firstKey stack) _ = _
    rw [State.resume_key rfl,
      h (name, value) List.mem_cons_self (enters_value _) (delimiting_writeMembers rest members),
      resume_writeMembers fun other hother => h other (List.mem_cons_of_mem _ hother)]
    rfl

/-- A number whose text is a document. -/
theorem reads_number {x : Number} {d : Document} (h : read? (String.ofList x.write) = some d) :
    (Json.number x).Reads := by
  intro state stack rest hstate hrest
  have hd : x.document = d := by rw [Number.document, h, Option.getD_some]
  rw [document, hd, ← resume_document h hrest hstate, String.toList_ofList]
  rfl

theorem Canonical.reads {j : Json} (h : j.Canonical) : j.Reads := by
  induction h with
  | null =>
    intro state stack rest hstate hrest
    exact resume_word rfl (hstate .null (by simp)) hrest
  | bool b =>
    intro state stack rest hstate hrest
    have hword : lexemes? (writeBool b) = some [.bool b] := by cases b <;> rfl
    exact resume_word hword (hstate (.bool b) (by simp)) hrest
  | number hx => exact reads_number hx.read?_write
  | string s =>
    intro state stack rest hstate hrest
    rw [writeBefore, State.resume_string, hstate _ (by simp)]
    rfl
  | array _ ih => exact reads_array ih
  | object _ _ ih => exact reads_object ih

theorem Reads.read?_render {j : Json} (h : j.Reads) : read? j.render = some j.document := by
  apply read?_of_resume
  rw [render, String.toList_ofList, write, h (enters_value []) delimiting_nil, resume_nil]

theorem read?_render {j : Json} (h : j.Canonical) : read? j.render = some j.document :=
  Reads.read?_render h.reads

/-! ## The value of the document -/

/-- A number needs no levels. -/
theorem value?_number {x : Number} (h : x.Readable) (levels : Nat) :
    x.document.value? levels = some (.number x) := by
  have hvalue := h.value?_document
  cases hd : x.document with
  | number numeral =>
    rw [hd] at hvalue
    exact hvalue
  | null | bool =>
    rw [hd] at hvalue
    cases hvalue
  | string | array | object =>
    rw [hd] at hvalue
    obtain ⟨_, -, hother⟩ := Option.map_eq_some_iff.1 hvalue
    cases hother

theorem values?_documents {items : List Json} {levels : Nat}
    (h : ∀ item ∈ items,
      item.document.value? levels = if item.nesting ≤ levels then some item else none) :
    values? levels (documents items) =
      if itemsNesting items ≤ levels then some items else none := by
  induction items with
  | nil => rw [if_pos (by simp [itemsNesting])]; rfl
  | cons item items ih =>
    rw [documents, values?, h item List.mem_cons_self,
      ih fun other hother => h other (List.mem_cons_of_mem _ hother), itemsNesting]
    by_cases hitem : item.nesting ≤ levels
    · by_cases hitems : itemsNesting items ≤ levels
      · rw [if_pos hitem, if_pos hitems, if_pos (by omega)]
        rfl
      · rw [if_pos hitem, if_neg hitems, if_neg (by omega)]
        rfl
    · have hmax : ¬ max item.nesting (itemsNesting items) ≤ levels := by omega
      rw [if_neg hitem, if_neg hmax]
      rfl

theorem pairs?_memberDocuments {members : List (String × Json)} {levels : Nat}
    (h : ∀ p ∈ members,
      p.2.document.value? levels = if p.2.nesting ≤ levels then some p.2 else none) :
    pairs? levels (memberDocuments members) =
      if membersNesting members ≤ levels then some members else none := by
  induction members with
  | nil => rw [if_pos (by simp [membersNesting])]; rfl
  | cons p members ih =>
    obtain ⟨name, value⟩ := p
    rw [memberDocuments, pairs?, string?_partsOf, h (name, value) List.mem_cons_self,
      ih fun other hother => h other (List.mem_cons_of_mem _ hother), membersNesting]
    by_cases hvalue : value.nesting ≤ levels
    · by_cases hmembers : membersNesting members ≤ levels
      · rw [if_pos hvalue, if_pos hmembers, if_pos (by omega)]
        rfl
      · rw [if_pos hvalue, if_neg hmembers, if_neg (by omega)]
        rfl
    · have hmax : ¬ max value.nesting (membersNesting members) ≤ levels := by omega
      rw [if_neg hvalue, if_neg hmax]
      rfl

theorem value?_document {j : Json} (h : j.Canonical) (levels : Nat) :
    j.document.value? levels = if j.nesting ≤ levels then some j else none := by
  induction h generalizing levels with
  | null => rw [if_pos (by simp [nesting])]; rfl
  | bool b => rw [if_pos (by simp [nesting])]; rfl
  | number hx => rw [if_pos (by simp [nesting])]; exact value?_number hx levels
  | string s =>
    rw [if_pos (by simp [nesting]), document, value?, string?_partsOf]
    rfl
  | array _ ih =>
    rw [document, nesting]
    cases levels with
    | zero => rw [if_neg (by omega)]; rfl
    | succ levels =>
      rw [value?, values?_documents fun item hitem => ih item hitem levels]
      simp only [Nat.add_le_add_iff_right]
      split <;> rfl
  | object hsorted _ ih =>
    rw [document, nesting]
    cases levels with
    | zero => rw [if_neg (by omega)]; rfl
    | succ levels =>
      rw [value?, pairs?_memberDocuments fun p hp => ih p hp levels]
      simp only [Nat.add_le_add_iff_right]
      split
      · rw [Option.map_some, hsorted.insertAll_eq]
      · rfl

/-- The text of a canonical value is read back up to the limit of nesting. -/
theorem parse?_render {j : Json} (h : j.Canonical) :
    parse? j.render = if j.nesting ≤ nestingLimit then some j else none := by
  rw [parse?, read?_render h]
  exact value?_document h nestingLimit

end RecordRules.Json

import Mathlib.Data.List.Forall2
import Mathlib.Data.List.Nodup
import RecordRules.Proofs.Request
import RecordRules.Proofs.Rule.NamedFields

/-!
# Two ways to read a record

As the data of a request a record is read from the document, field by field; on its own
its text becomes a JSON value first, in which only the last member of each key is left.
Both ways give each member the same field (`ofJson?_of_value?`), and making a value of the
members commutes with making fields of them (`forall₂_insertAll`).  So what the request
accepts is accepted on its own, as the same record; what is accepted on its own is accepted
by the request when no member hides another.

    ofDocument? d = some r → d.value? (levels + 1) >>= ofJson = ok r   (ofJson_of_ofDocument?)
-/

namespace RecordRules

open Json Document State

/-! ## Fields of two kinds under the same names -/

namespace Fields

variable {α β : Type} {R : α → β → Prop}

/-- The pairs have the same name, and related values. -/
def Related (R : α → β → Prop) (p : String × α) (q : String × β) : Prop :=
  p.1 = q.1 ∧ R p.2 q.2

theorem forall₂_insert {fs : List (String × α)} {gs : List (String × β)}
    (h : List.Forall₂ (Related R) fs gs) (name : String) {v : α} {w : β} (hvw : R v w) :
    List.Forall₂ (Related R) (insert name v fs) (insert name w gs) := by
  induction h with
  | nil => exact .cons ⟨rfl, hvw⟩ .nil
  | @cons p q fs gs hpq hrest ih =>
    obtain ⟨key, v'⟩ := p
    obtain ⟨key', w'⟩ := q
    obtain ⟨rfl, hvalues⟩ : key = key' ∧ R v' w' := hpq
    simp only [insert]
    split
    · exact .cons ⟨rfl, hvw⟩ (.cons ⟨rfl, hvalues⟩ hrest)
    · split
      · exact .cons ⟨rfl, hvw⟩ hrest
      · exact .cons ⟨rfl, hvalues⟩ ih

theorem forall₂_insertAll {ps : List (String × α)} {qs : List (String × β)}
    (h : List.Forall₂ (Related R) ps qs) {fs : List (String × α)} {gs : List (String × β)}
    (hfields : List.Forall₂ (Related R) fs gs) :
    List.Forall₂ (Related R) (insertAll fs ps) (insertAll gs qs) := by
  induction h generalizing fs gs with
  | nil => exact hfields
  | @cons p q ps qs hpq _ ih =>
    obtain ⟨name, v⟩ := p
    obtain ⟨name', w⟩ := q
    obtain ⟨rfl, hvw⟩ : name = name' ∧ R v w := hpq
    exact ih (forall₂_insert hfields name hvw)

theorem mem_insert_self (name : String) (v : α) (fs : List (String × α)) :
    (name, v) ∈ insert name v fs := by
  induction fs with
  | nil => exact List.mem_cons_self
  | cons p fs ih =>
    simp only [insert]
    split
    · exact List.mem_cons_self
    · split
      · exact List.mem_cons_self
      · exact List.mem_cons_of_mem _ ih

/-- Fields under other names stay. -/
theorem mem_insert_of_ne {name : String} {p : String × α} (hne : p.1 ≠ name) (v : α)
    {fs : List (String × α)} (h : p ∈ fs) : p ∈ insert name v fs := by
  induction fs with
  | nil => cases h
  | cons q fs ih =>
    simp only [insert]
    split
    · exact List.mem_cons_of_mem _ h
    · split
      · next heq =>
        refine List.mem_cons_of_mem _ ((List.mem_cons.1 h).resolve_left ?_)
        rintro rfl
        exact hne heq.symm
      · exact List.mem_cons.2 ((List.mem_cons.1 h).imp_right ih)

/-- Of pairs under different names none is lost. -/
theorem mem_insertAll {pairs : List (String × α)} (hnames : (pairs.map Prod.fst).Nodup)
    {fs : List (String × α)} {p : String × α}
    (h : p ∈ pairs ∨ p ∈ fs ∧ p.1 ∉ pairs.map Prod.fst) : p ∈ insertAll fs pairs := by
  induction pairs generalizing fs with
  | nil => exact (h.resolve_left (List.not_mem_nil)).1
  | cons q pairs ih =>
    obtain ⟨hq, hnames⟩ := List.nodup_cons.1 hnames
    refine ih hnames ?_
    rcases h with h | ⟨hmem, hname⟩
    · rcases List.mem_cons.1 h with rfl | h
      · exact .inr ⟨mem_insert_self _ _ _, hq⟩
      · exact .inl h
    · obtain ⟨hne, hname⟩ := not_or.1 (mt List.mem_cons.2 hname)
      exact .inr ⟨mem_insert_of_ne hne _ hmem, hname⟩

end Fields

theorem mapM_eq_some_iff {α β : Type} {f : α → Option β} {xs : List α} {ys : List β} :
    xs.mapM f = some ys ↔ List.Forall₂ (fun x y => f x = some y) xs ys := by
  induction xs generalizing ys with
  | nil =>
    rw [List.mapM_nil, List.forall₂_nil_left_iff]
    exact ⟨fun h => (Option.some.inj h).symm, fun h => congrArg some h.symm⟩
  | cons x xs ih =>
    rw [List.mapM_cons, List.forall₂_cons_left_iff]
    cases hx : f x with
    | none => simp
    | some y =>
      cases hxs : xs.mapM f with
      | none => simp [← ih, hxs]
      | some ys' => simp [← ih, hxs, eq_comm]

theorem exists_mapM_iff {α β : Type} {f : α → Option β} {xs : List α} :
    (∃ ys, xs.mapM f = some ys) ↔ ∀ x ∈ xs, ∃ y, f x = some y := by
  induction xs with
  | nil => simp
  | cons x xs ih =>
    rw [List.forall_mem_cons, ← ih, List.mapM_cons]
    cases f x <;> cases xs.mapM f <;> simp

/-! ## One member -/

/-- The JSON value is that of the field. -/
def Writes (j : Json) (v : FieldValue) : Prop := FieldValue.ofJson? j = some v

/-- A document that is a field value has a JSON value, whatever the levels. -/
theorem exists_value?_of_ofDocument? {d : Document} {v : FieldValue}
    (h : FieldValue.ofDocument? d = some v) (levels : Nat) :
    ∃ j, d.value? levels = some j ∧ Writes j v := by
  cases d with
  | number x =>
    obtain ⟨y, hy, rfl⟩ := Option.map_eq_some_iff.1 h
    exact ⟨.number y, congrArg (Option.map Json.number) hy, rfl⟩
  | string parts =>
    obtain ⟨s, hs, rfl⟩ := Option.map_eq_some_iff.1 h
    exact ⟨.string s, congrArg (Option.map Json.string) hs, rfl⟩
  | null | bool | array | object => cases h

/-- The field of a document is that of its JSON value. -/
theorem ofJson?_of_value? {d : Document} {j : Json} {levels : Nat}
    (h : d.value? levels = some j) : FieldValue.ofDocument? d = FieldValue.ofJson? j := by
  cases d with
  | number x =>
    obtain ⟨y, hy, rfl⟩ := Option.map_eq_some_iff.1 h
    exact congrArg (Option.map FieldValue.ofNumber) hy
  | string parts =>
    obtain ⟨s, hs, rfl⟩ := Option.map_eq_some_iff.1 h
    exact congrArg (Option.map FieldValue.text) hs
  | null | bool =>
    cases h
    rfl
  | array items =>
    cases levels with
    | zero => cases h
    | succ levels =>
      obtain ⟨js, -, rfl⟩ := Option.map_eq_some_iff.1 h
      rfl
  | object members =>
    cases levels with
    | zero => cases h
    | succ levels =>
      obtain ⟨pairs, -, rfl⟩ := Option.map_eq_some_iff.1 h
      rfl

/-! ## All members -/

/-- The keys of an object as they are meant, each in its place; one that is no text is none. -/
def Json.Document.keys : Document → List (Option String)
  | .object members => members.map fun p => string? p.1
  | _ => []

/-- The key and the value of a member of an object. -/
def memberValue? (levels : Nat) (p : List StringPart × Document) : Option (String × Json) := do
  let name ← string? p.1
  let j ← p.2.value? levels
  return (name, j)

theorem pairs?_eq_mapM (levels : Nat) (members : Members) :
    pairs? levels members = members.mapM (memberValue? levels) := by
  induction members with
  | nil => rfl
  | cons p members ih =>
    obtain ⟨key, member⟩ := p
    rw [pairs?, List.mapM_cons, memberValue?, ih]
    cases string? key <;> cases member.value? levels <;> rfl

theorem memberValue?_eq_some_iff {levels : Nat} {p : List StringPart × Document}
    {q : String × Json} :
    memberValue? levels p = some q ↔ string? p.1 = some q.1 ∧ p.2.value? levels = some q.2 := by
  unfold memberValue?
  cases string? p.1 <;> cases p.2.value? levels <;> simp [Prod.ext_iff]

/-- The keys of an object are the names of its pairs. -/
theorem keys_eq {members : Members} {levels : Nat} {pairs : List (String × Json)}
    (h : pairs? levels members = some pairs) :
    keys (.object members) = (pairs.map Prod.fst).map some := by
  rw [pairs?_eq_mapM, mapM_eq_some_iff] at h
  induction h with
  | nil => rfl
  | cons hpq _ ih => exact congrArg₂ List.cons (memberValue?_eq_some_iff.1 hpq).1 ih

namespace Record

theorem ofDocumentMember?_eq_some_iff {p : List StringPart × Document} {q : String × FieldValue} :
    ofDocumentMember? p = some q ↔
      string? p.1 = some q.1 ∧ FieldValue.ofDocument? p.2 = some q.2 := by
  unfold ofDocumentMember?
  cases string? p.1 <;> cases FieldValue.ofDocument? p.2 <;> simp [Prod.ext_iff]

theorem ofMember?_eq_some_iff {p : String × Json} {q : String × FieldValue} :
    ofMember? p = some q ↔ Fields.Related Writes p q := by
  unfold ofMember? Fields.Related Writes
  cases FieldValue.ofJson? p.2 <;> simp [Prod.ext_iff]

theorem mapM_ofMember?_eq_some_iff {pairs : List (String × Json)}
    {insertions : List (String × FieldValue)} :
    pairs.mapM ofMember? = some insertions ↔
      List.Forall₂ (Fields.Related Writes) pairs insertions := by
  simp only [mapM_eq_some_iff, ofMember?_eq_some_iff]

/-- The members that a request accepts have values, which write the same fields. -/
theorem exists_pairs?_of_mapM {members : Members} {insertions : List (String × FieldValue)}
    (h : members.mapM ofDocumentMember? = some insertions) (levels : Nat) :
    ∃ pairs, pairs? levels members = some pairs ∧
      List.Forall₂ (Fields.Related Writes) pairs insertions := by
  simp only [pairs?_eq_mapM, mapM_eq_some_iff] at h ⊢
  induction h with
  | nil => exact ⟨[], .nil, .nil⟩
  | @cons p q members insertions hpq _ ih =>
    obtain ⟨hname, hfield⟩ := ofDocumentMember?_eq_some_iff.1 hpq
    obtain ⟨j, hj, hwrites⟩ := exists_value?_of_ofDocument? hfield levels
    obtain ⟨pairs, hpairs, hrelated⟩ := ih
    exact ⟨(q.1, j) :: pairs, .cons (memberValue?_eq_some_iff.2 ⟨hname, hj⟩) hpairs,
      .cons ⟨rfl, hwrites⟩ hrelated⟩

/-- Members whose values all write fields are accepted by a request. -/
theorem mapM_ofDocumentMember?_of_pairs? {members : Members} {levels : Nat}
    {pairs : List (String × Json)} (hpairs : pairs? levels members = some pairs)
    {insertions : List (String × FieldValue)}
    (h : List.Forall₂ (Fields.Related Writes) pairs insertions) :
    members.mapM ofDocumentMember? = some insertions := by
  simp only [pairs?_eq_mapM, mapM_eq_some_iff] at hpairs ⊢
  induction hpairs generalizing insertions with
  | nil =>
    cases h
    exact .nil
  | @cons p q members pairs hpq _ ih =>
    obtain _ | ⟨⟨hnames, hwrites⟩, hrest⟩ := h
    obtain ⟨hname, hvalue⟩ := memberValue?_eq_some_iff.1 hpq
    refine .cons (ofDocumentMember?_eq_some_iff.2 ⟨hname.trans (congrArg some hnames), ?_⟩)
      (ih hrest)
    rw [ofJson?_of_value? hvalue]
    exact hwrites

/-! ## Records -/

/-- The object of pairs that write fields is the record of the fields: what is inserted
over an earlier member is inserted over its field. -/
theorem ofJson_insertAll {pairs : List (String × Json)} {insertions : List (String × FieldValue)}
    (h : List.Forall₂ (Fields.Related Writes) pairs insertions) :
    ofJson (.object (Fields.insertAll [] pairs)) = .ok (ofList insertions) := by
  have hfields := mapM_ofMember?_eq_some_iff.2 (Fields.forall₂_insertAll h .nil)
  have hsorted : Fields.Sorted (Fields.insertAll [] insertions) := (ofList insertions).sorted
  have hrecord : ofList (Fields.insertAll [] insertions) = ofList insertions := by
    simp only [ofList, insertAll, empty, hsorted.insertAll_eq]
  rw [ofJson, hfields, ← hrecord]

theorem ofJson_of_ofDocument? {d : Document} {r : Record} (h : ofDocument? d = some r)
    (levels : Nat) : ∃ j, d.value? (levels + 1) = some j ∧ ofJson j = .ok r := by
  cases d with
  | object members =>
    obtain ⟨insertions, hinsertions, rfl⟩ := Option.map_eq_some_iff.1 h
    obtain ⟨pairs, hpairs, hrelated⟩ := exists_pairs?_of_mapM hinsertions levels
    refine ⟨.object (Fields.insertAll [] pairs), ?_, ofJson_insertAll hrelated⟩
    rw [value?, hpairs]
    rfl
  | null | bool | number | string | array => cases h

/-- Each field of the record of a document is that of the last member under its name. -/
theorem exists_members_of_ofDocument? {d : Document} {r : Record} (h : ofDocument? d = some r) :
    ∃ members insertions, d = .object members ∧
      List.Forall₂ (fun p q => string? p.1 = some q.1 ∧ FieldValue.ofDocument? p.2 = some q.2)
        members insertions ∧
      ∀ name, r.get? name = lastValue? name insertions := by
  cases d with
  | object members =>
    obtain ⟨insertions, hinsertions, rfl⟩ := Option.map_eq_some_iff.1 h
    simp only [mapM_eq_some_iff, ofDocumentMember?_eq_some_iff] at hinsertions
    refine ⟨members, insertions, rfl, hinsertions, fun name => ?_⟩
    rw [ofList, get?_insertAll]
    exact Option.or_none
  | null | bool | number | string | array => cases h

theorem exists_of_ofJson {j : Json} {r : Record} (h : ofJson j = .ok r) :
    ∃ members, j = .object members ∧ ∀ p ∈ members, ∃ q, ofMember? p = some q := by
  cases j with
  | object members =>
    refine ⟨members, rfl, exists_mapM_iff.1 ?_⟩
    unfold ofJson at h
    dsimp only at h
    split at h
    · next insertions hinsertions => exact ⟨insertions, hinsertions⟩
    · cases h
  | null | bool | number | string | array => cases h

/-- Where no key is repeated no member is hidden, so all of them are fields. -/
theorem ofDocument?_of_ofJson {d : Document} {levels : Nat} {j : Json} {r : Record}
    (hvalue : d.value? (levels + 1) = some j) (hrecord : ofJson j = .ok r)
    (hkeys : d.keys.Nodup) : ofDocument? d = some r := by
  obtain ⟨kept, rfl, hkept⟩ := exists_of_ofJson hrecord
  cases d with
  | object members =>
    obtain ⟨pairs, hpairs, hobject⟩ := Option.map_eq_some_iff.1 hvalue
    obtain rfl : Fields.insertAll [] pairs = kept := Json.object.inj hobject
    have hnames : (pairs.map Prod.fst).Nodup := by
      rw [keys_eq hpairs] at hkeys
      exact List.Nodup.of_map some hkeys
    obtain ⟨insertions, hinsertions⟩ := exists_mapM_iff.2 fun p hp =>
      hkept p (Fields.mem_insertAll hnames (.inl hp))
    have hrelated := mapM_ofMember?_eq_some_iff.1 hinsertions
    rw [ofJson_insertAll hrelated] at hrecord
    rw [ofDocument?, mapM_ofDocumentMember?_of_pairs? hpairs hrelated, Option.map_some,
      Except.ok.inj hrecord]
  | null | bool => cases hvalue
  | number | string | array =>
    obtain ⟨_, -, hother⟩ := Option.map_eq_some_iff.1 hvalue
    cases hother

/-- On its own a record is read from the value of its text. -/
theorem parse_eq_ok_iff {text : String} {d : Document} (h : read? text = some d) {r : Record} :
    parse text = .ok r ↔ ∃ j, d.value? nestingLimit = some j ∧ ofJson j = .ok r := by
  have hparse : Json.parse? text = d.value? nestingLimit := by
    rw [parse?, h]
    rfl
  rw [parse, Json.parse, hparse]
  cases d.value? nestingLimit <;> simp

end Record

/-! ## The request -/

namespace EvaluateRequest

/-- The text of a request for the verdict of no rule on a record. -/
def withoutRule (data : String) : String :=
  "\x7b\"rule\": " ++ "null" ++ ", \"data\": " ++ data ++ "\x7d"

/-- A blank between lexemes is of no account. -/
theorem resume_blank (state : State) (rest : List Char) :
    state.resume (' ' :: rest) = state.resume rest := by
  have hblank : Mode.between.step ' ' = some (.between, []) := rfl
  rw [State.resume, State.resume, lexemes?_eq, lexemes?_eq, Mode.read?_quiet hblank]

theorem toList_withoutRule (data : String) :
    (withoutRule data).toList =
      '{' :: (writeString "rule" ++ ':' :: ' ' :: ("null".toList ++
        ',' :: ' ' :: (writeString "data" ++ ':' :: ' ' :: (data.toList ++ ['}'])))) := by
  have hrule : "\x7b\"rule\": ".toList = '{' :: (writeString "rule" ++ [':', ' ']) := by decide
  have hdata : ", \"data\": ".toList = ',' :: ' ' :: (writeString "data" ++ [':', ' ']) := by
    decide
  have hclose : "\x7d".toList = ['}'] := by decide
  simp only [withoutRule, String.toList_append, hrule, hdata, hclose, List.append_assoc,
    List.cons_append, List.nil_append]

theorem read?_withoutRule {data : String} {d : Document} (h : read? data = some d) :
    read? (withoutRule data) =
      some (.object [(partsOf "rule", .null), (partsOf "data", d)]) := by
  have hnull : lexemes? "null".toList = some [.null] := rfl
  have hstep : (State.value [.object [] (partsOf "rule")]).step .null =
      some (.complete [.object [] (partsOf "rule")] .null) := rfl
  apply read?_of_resume
  rw [toList_withoutRule, resume_mark mark_openObject]
  show State.resume (.firstKey []) _ = _
  rw [resume_key rfl, resume_blank, resume_word hnull hstep (mark_comma.delimiting _),
    resume_mark mark_comma]
  show State.resume (.key [] [(partsOf "rule", .null)]) _ = _
  rw [resume_blank, resume_key rfl, resume_blank,
    resume_document h (mark_closeObject.delimiting _) (enters_value _),
    resume_mark mark_closeObject]
  rfl

/-- The request is accepted when its data is a record. -/
theorem parse_withoutRule_eq_ok_iff {data : String} {d : Document} (h : read? data = some d)
    {request : EvaluateRequest} :
    parse (withoutRule data) = .ok request ↔
      request.rule = .null ∧ Record.ofDocument? d = some request.data := by
  have hparts : parts? ["rule", "data"] (.object [(partsOf "rule", .null), (partsOf "data", d)]) =
      some [some .null, some d] := by
    refine (parts?_object _ [("rule", .null), ("data", d)]).trans ?_
    simp [onlyPart?]
  rw [parse, read?_withoutRule h, Option.bind_eq_bind, Option.bind_some, ofDocument?, hparts]
  dsimp only [ruleValue?, value?]
  obtain ⟨rule, data⟩ := request
  cases Record.ofDocument? d <;> simp [eq_comm]

end EvaluateRequest

/-! ## Both ways -/

/-- **The two ways of reading a record agree.**  What is accepted as the data of a request
is accepted on its own, as the same record; and the other way round where no key is repeated.
When both accept, each field holds what the last member under its name writes. -/
theorem Record.parse_agrees {data : String} {d : Document} (hdata : read? data = some d) :
    (∀ request, EvaluateRequest.parse (EvaluateRequest.withoutRule data) = .ok request →
      request.rule = .null ∧ Record.parse data = .ok request.data) ∧
    (∀ r, Record.parse data = .ok r → d.keys.Nodup →
      EvaluateRequest.parse (EvaluateRequest.withoutRule data) = .ok ⟨.null, r⟩) ∧
    ∀ request r, EvaluateRequest.parse (EvaluateRequest.withoutRule data) = .ok request →
      Record.parse data = .ok r →
      ∃ members insertions, d = .object members ∧
        List.Forall₂ (fun p q => string? p.1 = some q.1 ∧ FieldValue.ofDocument? p.2 = some q.2)
          members insertions ∧
        ∀ name, request.data.get? name = lastValue? name insertions ∧
          r.get? name = lastValue? name insertions := by
  have hparse : ∀ request,
      EvaluateRequest.parse (EvaluateRequest.withoutRule data) = .ok request →
      request.rule = .null ∧ Record.parse data = .ok request.data := by
    intro request h
    obtain ⟨hrule, hrecord⟩ := (EvaluateRequest.parse_withoutRule_eq_ok_iff hdata).1 h
    exact ⟨hrule, (parse_eq_ok_iff hdata).2 (ofJson_of_ofDocument? hrecord 126)⟩
  refine ⟨hparse, ?_, ?_⟩
  · intro r h hkeys
    obtain ⟨j, hj, hrecord⟩ := (parse_eq_ok_iff hdata).1 h
    exact (EvaluateRequest.parse_withoutRule_eq_ok_iff hdata).2
      ⟨rfl, ofDocument?_of_ofJson hj hrecord hkeys⟩
  · intro request r h hr
    obtain rfl : request.data = r := Except.ok.inj ((hparse request h).2.symm.trans hr)
    obtain ⟨-, hrecord⟩ := (EvaluateRequest.parse_withoutRule_eq_ok_iff hdata).1 h
    obtain ⟨members, insertions, rfl, hmembers, hget⟩ := exists_members_of_ofDocument? hrecord
    exact ⟨members, insertions, rfl, hmembers, fun name => ⟨hget name, hget name⟩⟩

/-- Of a text and a negative zero under one key both ways keep the zero, which is no integer. -/
theorem Record.parse_agrees_repeated :
    let data := "\x7b\"n\": \"x\", \"n\": -0\x7d"
    let r := Record.ofList [("n", .number (.zero true))]
    (∃ d, read? data = some d) ∧
      EvaluateRequest.parse (EvaluateRequest.withoutRule data) = .ok ⟨.null, r⟩ ∧
      Record.parse data = .ok r := by
  intro data r
  have hrecord : (read? data >>= Record.ofDocument?) = some r := by decide +kernel
  obtain ⟨d, hd, hr⟩ := Option.bind_eq_some_iff.1 hrecord
  have haccepted : EvaluateRequest.parse (EvaluateRequest.withoutRule data) = .ok ⟨.null, r⟩ := by
    rw [EvaluateRequest.parse_withoutRule_eq_ok_iff hd]
    exact ⟨rfl, hr⟩
  obtain ⟨hparse, -, -⟩ := Record.parse_agrees hd
  exact ⟨⟨d, hd⟩, haccepted, (hparse _ haccepted).2⟩

end RecordRules

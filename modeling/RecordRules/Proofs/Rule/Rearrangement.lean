import Mathlib.Logic.Relation
import RecordRules.Proofs.Rule.FirstError

/-!
# Order and grouping do not matter

Two sub-rules may change places, and of three that are joined by one connective twice, any two
neighbours may be grouped (`Rearranges`, anywhere in the rule).  However often this is done,
the verdict stays, as long as the first and the last rule lie within the limit; the rules
between them may be deeper.

This holds because both sides of a connective are always evaluated: a rearranged rule has the
same conditions and connectives, in another order (`SameContent`), and it is true of the same
records.  Its depth is another one, and the error that is met first may be another one.
-/

namespace RecordRules.Rule

/-- One step of rearranging a rule: two sub-rules change places, or three under one connective
are grouped the other way, at the root or further down. -/
inductive Rearranges : Rule → Rule → Prop
  | swap (op : String) (l r : Rule) : Rearranges (combine op l r) (combine op r l)
  | groupRight (k : Connective) (a b c : Rule) :
    Rearranges (combine k.keyword (combine k.keyword a b) c)
      (combine k.keyword a (combine k.keyword b c))
  | groupLeft (k : Connective) (a b c : Rule) :
    Rearranges (combine k.keyword a (combine k.keyword b c))
      (combine k.keyword (combine k.keyword a b) c)
  | left {op : String} {l l' r : Rule} : Rearranges l l' →
    Rearranges (combine op l r) (combine op l' r)
  | right {op : String} {l r r' : Rule} : Rearranges r r' →
    Rearranges (combine op l r) (combine op l r')

/-- The same conditions and connectives, in whatever order, and the same truth on the record. -/
structure SameContent (record : Record) (t t' : Rule) : Prop where
  conditions : t.conditions.Perm t'.conditions
  connectives : t.connectives.Perm t'.connectives
  holds_iff : t.Holds record ↔ t'.Holds record

namespace SameContent

variable {record : Record} {t t' t'' l l' r r' : Rule}

theorem refl (record : Record) (t : Rule) : SameContent record t t := ⟨.refl _, .refl _, Iff.rfl⟩

theorem symm (h : SameContent record t t') : SameContent record t' t :=
  ⟨h.conditions.symm, h.connectives.symm, h.holds_iff.symm⟩

theorem trans (h : SameContent record t t') (h' : SameContent record t' t'') :
    SameContent record t t'' :=
  ⟨h.conditions.trans h'.conditions, h.connectives.trans h'.connectives,
    h.holds_iff.trans h'.holds_iff⟩

/-- Sub-rules may be replaced by others of the same content. -/
theorem congr (op : String) (hl : SameContent record l l') (hr : SameContent record r r') :
    SameContent record (combine op l r) (combine op l' r') where
  conditions := hl.conditions.append hr.conditions
  connectives := (hl.connectives.append hr.connectives).cons op
  holds_iff := by rw [Holds, Holds, hl.holds_iff, hr.holds_iff]

theorem swap (record : Record) (op : String) (l r : Rule) :
    SameContent record (combine op l r) (combine op r l) where
  conditions := List.perm_append_comm
  connectives := List.perm_append_comm.cons op
  holds_iff := by
    rw [Holds, Holds]
    exact or_congr (and_congr_right' and_comm) (and_congr_right' or_comm)

theorem groupRight (record : Record) (k : Connective) (a b c : Rule) :
    SameContent record (combine k.keyword (combine k.keyword a b) c)
      (combine k.keyword a (combine k.keyword b c)) where
  conditions := .of_eq (List.append_assoc ..)
  connectives := by
    simp only [Rule.connectives, List.cons_append, List.append_assoc]
    exact List.perm_middle.symm.cons k.keyword
  holds_iff := by
    cases k with
    | and => simp [Holds, Connective.keyword, and_assoc]
    | or => simp [Holds, Connective.keyword, or_assoc]

end SameContent

variable {record : Record} {t t' : Rule}

/-- One step keeps the content. -/
theorem Rearranges.sameContent (record : Record) (h : Rearranges t t') :
    SameContent record t t' := by
  induction h with
  | swap op l r => exact .swap record op l r
  | groupRight k a b c => exact .groupRight record k a b c
  | groupLeft k a b c => exact (SameContent.groupRight record k a b c).symm
  | left _ ih => exact .congr _ ih (.refl record _)
  | right _ ih => exact .congr _ (.refl record _) ih

/-- Any number of steps keep the content. -/
theorem sameContent_of_rearranged (record : Record)
    (h : Relation.ReflTransGen Rearranges t t') : SameContent record t t' := by
  induction h with
  | refl => exact .refl record t
  | tail _ hstep ih => exact ih.trans (hstep.sameContent record)

/-- The verdict of a rule within the limit depends on its content alone. -/
theorem SameContent.evaluate_eq_ok {limit : Nat} {b : Bool} (h : SameContent record t t')
    (hdepth : t'.depth ≤ limit) (hverdict : t.evaluate limit record = .ok b) :
    t'.evaluate limit record = .ok b := by
  have hlevels : 1 + limit = limit + 1 := Nat.add_comm 1 limit
  obtain ⟨hfaultless, htruth⟩ := (verdict_eq_ok_iff hlevels).1 hverdict
  refine (verdict_eq_ok_iff hlevels).2 ⟨⟨by omega, ?_, ?_⟩, htruth.trans h.holds_iff⟩
  · exact fun c hc => hfaultless.answers c (h.conditions.mem_iff.2 hc)
  · exact fun op hop => hfaultless.connectives op (h.connectives.mem_iff.2 hop)

/-- **Rearranged rules.**  Of two rules within the limit, one of which is made of the other by
changing places and regrouping, both have the same verdict, or neither has one. -/
theorem evaluate_rearranged (h : Relation.ReflTransGen Rearranges t t') {limit : Nat}
    (ht : t.depth ≤ limit) (ht' : t'.depth ≤ limit) (record : Record) :
    (∀ b, t.evaluate limit record = .ok b ↔ t'.evaluate limit record = .ok b) ∧
    ((∃ e, t.evaluate limit record = .error e) ↔ ∃ e, t'.evaluate limit record = .error e) := by
  have hcontent := sameContent_of_rearranged record h
  have hverdict : ∀ b, t.evaluate limit record = .ok b ↔ t'.evaluate limit record = .ok b :=
    fun b => ⟨hcontent.evaluate_eq_ok ht', hcontent.symm.evaluate_eq_ok ht⟩
  refine ⟨hverdict, ?_⟩
  rw [exists_eq_error_iff, exists_eq_error_iff]
  exact forall_congr' fun b => not_congr (hverdict b)

/-- Four conditions, which on the way between the two rules lie one below the other, beyond the
limit.  Both rules hold of the one record; on the other, which lacks two fields, their errors
are different. -/
theorem evaluate_rearranged_deeper :
    let a := condition ⟨"a", "=", "1"⟩
    let b := condition ⟨"b", "=", "1"⟩
    let c := condition ⟨"c", "=", "1"⟩
    let d := condition ⟨"d", "=", "1"⟩
    let t := combine "AND" (combine "AND" a b) (combine "AND" c d)
    let t' := combine "AND" (combine "AND" a c) (combine "AND" b d)
    let record := Record.ofList
      [("a", .integer 1), ("b", .integer 1), ("c", .text "1"), ("d", .integer 1)]
    let lacking := Record.ofList [("a", .integer 1), ("d", .integer 1)]
    Relation.ReflTransGen Rearranges t t' ∧ t.depth ≤ 3 ∧ t'.depth ≤ 3 ∧
    (∀ v, t.evaluate 3 record = .ok v ↔ t'.evaluate 3 record = .ok v) ∧
    t.evaluate 3 record = .ok true ∧
    ((∃ e, t.evaluate 3 lacking = .error e) ↔ ∃ e, t'.evaluate 3 lacking = .error e) ∧
    t.evaluate 3 lacking = .error (.fieldNotFound "b") ∧
    t'.evaluate 3 lacking = .error (.fieldNotFound "c") := by
  intro a b c d t t' record lacking
  have hdeep : Relation.ReflTransGen Rearranges t
      (combine "AND" a (combine "AND" b (combine "AND" c d))) := .single (.groupRight .and a b _)
  have hexchanged : Relation.ReflTransGen Rearranges t
      (combine "AND" a (combine "AND" c (combine "AND" b d))) :=
    ((hdeep.tail (.right (.groupLeft .and b c d))).tail (.right (.left (.swap _ b c)))).tail
      (.right (.groupRight .and c b d))
  have h : Relation.ReflTransGen Rearranges t t' := hexchanged.tail (.groupLeft .and a c _)
  have ht : t.depth ≤ 3 := by decide
  have ht' : t'.depth ≤ 3 := by decide
  have hverdict : t.evaluate 3 record = .ok true := toOption_eq_some_iff.1 (by decide +kernel)
  exact ⟨h, ht, ht', (evaluate_rearranged h ht ht' record).1, hverdict,
    (evaluate_rearranged h ht ht' lacking).2, rfl, rfl⟩

end RecordRules.Rule

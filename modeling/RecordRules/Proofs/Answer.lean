/-!
# Answers of computations in steps

When a computation that may fail answers, and when it fails, in terms of its
steps.  `do` blocks are taken apart with these, without unfolding them.

    x >>= f = ok b     ↔  ∃ a, x = ok a ∧ f a = ok b                     (bind_eq_ok_iff)
    x >>= f = error e  ↔  x = error e ∨ ∃ a, x = ok a ∧ f a = error e    (bind_eq_error_iff)
    x.map f = ok b     ↔  ∃ a, x = ok a ∧ f a = b                        (map_eq_ok_iff)
    x.map f = error e  ↔  x = error e                                    (map_eq_error_iff)
    (∃ a, x = ok a)    ↔  ∀ e, x ≠ error e                               (exists_eq_ok_iff)
    (∃ e, x = error e) ↔  ∀ a, x ≠ ok a                                  (exists_eq_error_iff)
    x.isOk = true      ↔  ∃ a, x = ok a                                  (isOk_iff)

What all failures of a computation have in common (`FailsWith`) is put together from its
steps in the same way, and so is the agreement of two computations of which the first may
give up (`AgreeUnless`).
-/

namespace RecordRules

variable {ε α β : Type}

@[simp] theorem ok_bind (a : α) (f : α → Except ε β) : (Except.ok a >>= f) = f a := rfl

@[simp] theorem error_bind (e : ε) (f : α → Except ε β) :
    (Except.error e >>= f) = .error e := rfl

theorem bind_eq_ok_iff {x : Except ε α} {f : α → Except ε β} {b : β} :
    (x >>= f) = .ok b ↔ ∃ a, x = .ok a ∧ f a = .ok b := by
  cases x <;> simp

theorem bind_eq_error_iff {x : Except ε α} {f : α → Except ε β} {e : ε} :
    (x >>= f) = .error e ↔ x = .error e ∨ ∃ a, x = .ok a ∧ f a = .error e := by
  cases x <;> simp

theorem map_eq_ok_iff {x : Except ε α} {f : α → β} {b : β} :
    x.map f = .ok b ↔ ∃ a, x = .ok a ∧ f a = b := by
  cases x <;> simp [Except.map]

theorem map_eq_error_iff {x : Except ε α} {f : α → β} {e : ε} :
    x.map f = .error e ↔ x = .error e := by
  cases x <;> simp [Except.map]

theorem exists_eq_ok_iff {x : Except ε α} : (∃ a, x = .ok a) ↔ ∀ e, x ≠ .error e := by
  cases x <;> simp

theorem exists_eq_error_iff {x : Except ε α} : (∃ e, x = .error e) ↔ ∀ a, x ≠ .ok a := by
  cases x <;> simp

theorem isOk_iff {x : Except ε α} : x.isOk = true ↔ ∃ a, x = .ok a := by
  cases x <;> simp [Except.isOk, Except.toBool]

theorem toOption_eq_some_iff {x : Except ε α} {a : α} : x.toOption = some a ↔ x = .ok a := by
  cases x <;> simp [Except.toOption]

/-! ## What failures have in common -/

/-- Every failure of the computation satisfies the predicate. -/
def FailsWith (P : ε → Prop) (x : Except ε α) : Prop := ∀ e, x = .error e → P e

variable {P : ε → Prop}

theorem failsWith_ok (a : α) : FailsWith P (.ok a : Except ε α) := by
  rintro e ⟨⟩

theorem failsWith_error {e : ε} (h : P e) : FailsWith P (.error e : Except ε α) := by
  rintro e' ⟨⟩
  exact h

theorem FailsWith.bind {x : Except ε α} {f : α → Except ε β} (hx : FailsWith P x)
    (hf : ∀ a, FailsWith P (f a)) : FailsWith P (x >>= f) := by
  intro e he
  rcases bind_eq_error_iff.1 he with he | ⟨a, -, he⟩
  · exact hx e he
  · exact hf a e he

theorem FailsWith.map {x : Except ε α} (hx : FailsWith P x) (f : α → β) :
    FailsWith P (x.map f) := by
  intro e he
  exact hx e (map_eq_error_iff.1 he)

/-! ## Computations that agree unless the first gives up -/

/-- The first computation gives up with the error `e`, or both answer the same. -/
def AgreeUnless (e : ε) (x y : Except ε α) : Prop := x = .error e ∨ x = y

theorem agreeUnless_refl (e : ε) (x : Except ε α) : AgreeUnless e x x := .inr rfl

theorem agreeUnless_error (e : ε) (y : Except ε α) : AgreeUnless e (.error e) y := .inl rfl

theorem AgreeUnless.bind {e : ε} {x y : Except ε α} {f g : α → Except ε β}
    (h : AgreeUnless e x y) (hf : ∀ a, AgreeUnless e (f a) (g a)) :
    AgreeUnless e (x >>= f) (y >>= g) := by
  rcases h with rfl | rfl
  · exact agreeUnless_error e _
  · cases x with
    | ok a => exact hf a
    | error e' => exact agreeUnless_refl e _

theorem AgreeUnless.map {e : ε} {x y : Except ε α} (h : AgreeUnless e x y) (f : α → β) :
    AgreeUnless e (x.map f) (y.map f) := by
  rcases h with rfl | rfl
  · exact agreeUnless_error e _
  · exact agreeUnless_refl e _

end RecordRules

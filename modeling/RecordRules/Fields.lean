/-!
# Fields in the order of their names

A finite map from names to values, kept as a list of pairs in which each name
is below the next one in code point order.  Records and JSON objects hold their
members so; a later value under a name takes the place of an earlier one.

* `get?_insert`: what is found after an insertion.
* `Sorted.insert`: an insertion keeps the order.
* `Sorted.ext`: fields in order are equal when the same values are found in them.
* `Sorted.insertAll_eq`: pairs that are in order already are kept as they are.
* `insertAll_perm`: of pairs under different names the order is of no account.
-/

namespace RecordRules.Fields

variable {α : Type}

/-- The value under a name. -/
def get? (name : String) : List (String × α) → Option α
  | [] => none
  | (key, v) :: rest => if key = name then some v else get? name rest

/-- The fields with the value under the name, which replaces the one that was there. -/
def insert (name : String) (value : α) : List (String × α) → List (String × α)
  | [] => [(name, value)]
  | (key, v) :: rest =>
    if name < key then (name, value) :: (key, v) :: rest
    else if name = key then (name, value) :: rest
    else (key, v) :: insert name value rest

/-- The fields after inserting the given pairs one after the other. -/
def insertAll (fields : List (String × α)) (pairs : List (String × α)) : List (String × α) :=
  pairs.foldl (fun fs p => insert p.1 p.2 fs) fields

/-- Each name is below the next. -/
def Sorted (fields : List (String × α)) : Prop :=
  fields.Pairwise fun a b => a.1 < b.1

/-! ## Lemmas -/

theorem get?_insert (name other : String) (value : α) (fields : List (String × α)) :
    get? other (insert name value fields) =
      if name = other then some value else get? other fields := by
  induction fields with
  | nil => simp [insert, get?]
  | cons p rest ih =>
    obtain ⟨key, v⟩ := p
    simp only [insert]
    split
    · simp [get?]
    · split
      · next h => subst h; by_cases hn : name = other <;> simp [get?, hn]
      · next hne =>
        simp only [get?, ih]
        by_cases hk : key = other
        · subst hk; simp [hne]
        · simp [hk]

theorem mem_insert {name : String} {value : α} {fields : List (String × α)} {p : String × α}
    (h : p ∈ insert name value fields) : p = (name, value) ∨ p ∈ fields := by
  induction fields with
  | nil => simpa [insert] using h
  | cons q rest ih =>
    obtain ⟨key, v⟩ := q
    simp only [insert] at h
    split at h
    · simpa using h
    · split at h
      · rcases List.mem_cons.1 h with h | h
        · exact .inl h
        · exact .inr (List.mem_cons_of_mem _ h)
      · rcases List.mem_cons.1 h with h | h
        · exact .inr (h ▸ List.mem_cons_self)
        · exact (ih h).imp id (List.mem_cons_of_mem _)

theorem Sorted.insert {fields : List (String × α)} (h : Sorted fields) (name : String)
    (value : α) :
    Sorted (insert name value fields) := by
  induction fields with
  | nil => simp [Sorted, Fields.insert]
  | cons p rest ih =>
    obtain ⟨key, v⟩ := p
    have ⟨hp, hr⟩ := List.pairwise_cons.1 h
    simp only [Fields.insert]
    split
    · next hlt =>
      refine List.pairwise_cons.2 ⟨fun q hq => ?_, h⟩
      rcases List.mem_cons.1 hq with rfl | hq
      · exact hlt
      · exact String.lt_trans hlt (hp q hq)
    · split
      · next heq => subst heq; exact List.pairwise_cons.2 ⟨hp, hr⟩
      · next hlt hne =>
        refine List.pairwise_cons.2 ⟨fun q hq => ?_, ih hr⟩
        rcases mem_insert hq with rfl | hq
        · rcases Std.lt_trichotomy key name with hk | hk | hk
          · exact hk
          · exact absurd hk.symm hne
          · exact absurd hk hlt
        · exact hp q hq

theorem Sorted.insertAll {fields : List (String × α)} (h : Sorted fields)
    (pairs : List (String × α)) : Sorted (insertAll fields pairs) := by
  induction pairs generalizing fields with
  | nil => exact h
  | cons p pairs ih => exact ih (h.insert p.1 p.2)

theorem get?_eq_none_of_lt {name : String} {fields : List (String × α)}
    (h : ∀ p ∈ fields, name < p.1) : get? name fields = none := by
  induction fields with
  | nil => rfl
  | cons p rest ih =>
    have hne : p.1 ≠ name := fun heq => String.lt_irrefl name (heq ▸ h p List.mem_cons_self)
    simp [get?, hne, ih fun q hq => h q (List.mem_cons_of_mem _ hq)]

theorem Sorted.ext {fs gs : List (String × α)} (hf : Sorted fs) (hg : Sorted gs)
    (h : ∀ name, get? name fs = get? name gs) : fs = gs := by
  induction fs generalizing gs with
  | nil =>
    cases gs with
    | nil => rfl
    | cons q gs => simpa [get?] using h q.1
  | cons p fs ih =>
    cases gs with
    | nil => simpa [get?] using h p.1
    | cons q gs =>
      obtain ⟨hp, hf⟩ := List.pairwise_cons.1 hf
      obtain ⟨hq, hg⟩ := List.pairwise_cons.1 hg
      have hk : p.1 = q.1 := by
        rcases Std.lt_trichotomy p.1 q.1 with hlt | heq | hlt
        · have hn : get? p.1 (q :: gs) = none := get?_eq_none_of_lt fun r hr => by
            rcases List.mem_cons.1 hr with rfl | hr
            · exact hlt
            · exact String.lt_trans hlt (hq r hr)
          have hfound := h p.1
          rw [hn] at hfound
          simp [get?] at hfound
        · exact heq
        · have hn : get? q.1 (p :: fs) = none := get?_eq_none_of_lt fun r hr => by
            rcases List.mem_cons.1 hr with rfl | hr
            · exact hlt
            · exact String.lt_trans hlt (hp r hr)
          have hfound := h q.1
          rw [hn] at hfound
          simp [get?] at hfound
      have hv : p.2 = q.2 := by simpa [get?, hk] using h p.1
      rw [Prod.ext hk hv, ih hf hg fun name => ?_]
      by_cases hn : p.1 = name
      · subst hn
        rw [get?_eq_none_of_lt hp, get?_eq_none_of_lt (hk ▸ hq)]
      · have := h name
        simpa [get?, hn, hk ▸ hn] using this

theorem sorted_iff_keys {fields : List (String × α)} :
    Sorted fields ↔ (fields.map Prod.fst).Pairwise (· < ·) := List.pairwise_map.symm

theorem insert_of_forall_lt {name : String} {fields : List (String × α)}
    (h : ∀ p ∈ fields, p.1 < name) (value : α) :
    insert name value fields = fields ++ [(name, value)] := by
  induction fields with
  | nil => rfl
  | cons p rest ih =>
    have hp : p.1 < name := h p List.mem_cons_self
    have hne : name ≠ p.1 := fun heq => String.lt_irrefl name (heq ▸ hp)
    rw [insert, if_neg (String.lt_asymm hp), if_neg hne,
      ih fun q hq => h q (List.mem_cons_of_mem _ hq)]
    rfl

theorem insertAll_of_sorted_append {fields pairs : List (String × α)}
    (h : Sorted (fields ++ pairs)) : insertAll fields pairs = fields ++ pairs := by
  induction pairs generalizing fields with
  | nil => exact (List.append_nil fields).symm
  | cons p pairs ih =>
    have hlt : ∀ q ∈ fields, q.1 < p.1 := fun q hq =>
      (List.pairwise_append.1 h).2.2 q hq p List.mem_cons_self
    have happend : fields ++ p :: pairs = (fields ++ [p]) ++ pairs := by simp
    rw [happend] at h ⊢
    rw [← ih h, ← insert_of_forall_lt hlt p.2]
    rfl

theorem Sorted.insertAll_eq {pairs : List (String × α)} (h : Sorted pairs) :
    Fields.insertAll [] pairs = pairs := insertAll_of_sorted_append h

theorem Sorted.nodup_keys {fields : List (String × α)} (h : Sorted fields) :
    (fields.map Prod.fst).Nodup := (sorted_iff_keys.1 h).imp String.ne_of_lt

theorem insert_comm {fields : List (String × α)} (h : Sorted fields) {a b : String} (hne : a ≠ b)
    (u v : α) : insert a u (insert b v fields) = insert b v (insert a u fields) := by
  refine Sorted.ext ((h.insert b v).insert a u) ((h.insert a u).insert b v) fun name => ?_
  rw [get?_insert, get?_insert, get?_insert, get?_insert]
  by_cases ha : a = name
  · have hb : b ≠ name := fun hb => hne (ha.trans hb.symm)
    rw [if_pos ha, if_neg hb, if_pos ha]
  · rw [if_neg ha, if_neg ha]

theorem insertAll_perm {fields pairs pairs' : List (String × α)} (h : Sorted fields)
    (hperm : pairs.Perm pairs') (hkeys : (pairs.map Prod.fst).Nodup) :
    insertAll fields pairs = insertAll fields pairs' := by
  induction hperm generalizing fields with
  | nil => rfl
  | cons p _ ih => exact ih (h.insert p.1 p.2) (List.nodup_cons.1 hkeys).2
  | swap p q rest =>
    have hne : p.1 ≠ q.1 := fun heq => (List.nodup_cons.1 hkeys).1 (heq ▸ List.mem_cons_self)
    show insertAll (insert p.1 p.2 (insert q.1 q.2 fields)) rest = _
    rw [insert_comm h hne]
    rfl
  | trans hleft _ ihl ihr =>
    exact (ihl h hkeys).trans (ihr h ((hleft.map Prod.fst).nodup_iff.1 hkeys))

end RecordRules.Fields

import RecordRules.Json.Document
import RecordRules.Proofs.Json.Lexeme

/-!
# Documents of composed texts

The machine can be resumed in any state on a text (`State.resume`), and does not
look at the arrays and objects that are open below the ones it works on
(`step_onto`).  So a text that is a document on its own is that document also
where it stands inside a larger text:

    read? text = some d → state.Enters stack →
      resume state (text ++ rest) = resume (complete stack d) rest             (resume_document)
-/

namespace RecordRules.Json.Document

namespace State

/-! ## Resuming -/

/-- The state after the lexemes of a text. -/
def resume (state : State) (text : List Char) : Option State :=
  (lexemes? text).bind fun ls => ls.foldlM step state

theorem resume_nil (state : State) : state.resume [] = some state := rfl

/-- Reading lexemes that are known, and then those of the rest. -/
theorem bind_foldlM_append (state : State) (ls : List Lexeme) (rest : List Char) :
    ((lexemes? rest).map (ls ++ ·)).bind (fun ms => ms.foldlM step state) =
      (ls.foldlM step state).bind fun next => next.resume rest := by
  simp only [resume]
  cases lexemes? rest with
  | none => simp
  | some ms => simp [List.foldlM_append]

theorem resume_mark {c : Char} {l : Lexeme} (hc : Mark c l) (state : State) (ds : List Char) :
    state.resume (c :: ds) = (state.step l).bind fun next => next.resume ds := by
  have h := bind_foldlM_append state [l] ds
  rw [List.foldlM_cons] at h
  simp only [List.foldlM_nil, Option.bind_eq_bind, Option.pure_def, Option.bind_fun_some] at h
  rw [← h, resume, lexemes?_mark hc]
  rfl

theorem resume_string (state : State) (s : String) (rest : List Char) :
    state.resume (writeString s ++ rest) =
      (state.step (.string (partsOf s))).bind fun next => next.resume rest := by
  have h := bind_foldlM_append state [.string (partsOf s)] rest
  rw [List.foldlM_cons] at h
  simp only [List.foldlM_nil, Option.bind_eq_bind, Option.pure_def, Option.bind_fun_some] at h
  rw [← h, resume, lexemes?_writeString]
  rfl

/-- A key and its colon: a value for the key comes next. -/
theorem resume_key {state : State} {stack : List Frame} {members : Members} {name : String}
    (h : state.step (.string (partsOf name)) = some (.colon stack members (partsOf name)))
    (rest : List Char) :
    state.resume (writeString name ++ ':' :: rest) =
      resume (.value (.object members (partsOf name) :: stack)) rest := by
  rw [resume_string, h, Option.bind_some, resume_mark mark_colon]
  rfl

theorem resume_append {cs rest : List Char} {ls : List Lexeme} (h : lexemes? cs = some ls)
    (hrest : Delimiting rest) (state : State) :
    state.resume (cs ++ rest) = (ls.foldlM step state).bind fun next => next.resume rest := by
  rw [resume, lexemes?_append h hrest]
  exact bind_foldlM_append state ls rest

/-! ## Frames below -/

/-- The state with more arrays and objects open around it. -/
def onto (base : List Frame) : State → State
  | value stack => value (stack ++ base)
  | firstItem stack => firstItem (stack ++ base)
  | firstKey stack => firstKey (stack ++ base)
  | key stack members => key (stack ++ base) members
  | colon stack members k => colon (stack ++ base) members k
  | complete stack v => complete (stack ++ base) v

theorem start_onto (base : List Frame) {stack : List Frame} {l : Lexeme} {next : State}
    (h : start stack l = some next) : start (stack ++ base) l = some (next.onto base) := by
  cases l <;> cases h <;> rfl

/-- What a lexeme leads to does not depend on the frames below. -/
theorem step_onto (base : List Frame) {state next : State} {l : Lexeme}
    (h : state.step l = some next) : (state.onto base).step l = some (next.onto base) := by
  cases state with
  | value stack => exact start_onto base h
  | firstItem stack =>
    by_cases hl : l = .closeArray
    · subst hl
      cases h
      rfl
    · rw [onto, step]
      · rw [step] at h
        · exact @start_onto base (.array [] :: stack) l next h
        · exact hl
      · exact hl
  | firstKey stack => cases l <;> cases h <;> rfl
  | key stack members =>
    cases l <;> cases h
    rfl
  | colon stack members k =>
    cases l <;> cases h
    rfl
  | complete stack v =>
    cases stack with
    | nil => cases l <;> cases h
    | cons frame stack => cases frame <;> cases l <;> cases h <;> rfl

theorem foldlM_onto (base : List Frame) {ls : List Lexeme} {state next : State}
    (h : ls.foldlM step state = some next) :
    ls.foldlM step (state.onto base) = some (next.onto base) := by
  induction ls generalizing state with
  | nil =>
    cases h
    rfl
  | cons l ls ih =>
    rw [List.foldlM_cons] at h ⊢
    obtain ⟨middle, hmiddle, hnext⟩ := Option.bind_eq_some_iff.1 h
    rw [step_onto base hmiddle]
    exact ih hnext

/-! ## Where a value may come -/

/-- A value that comes in the state is one for the frame on top of the stack. -/
def Enters (state : State) (stack : List Frame) : Prop :=
  ∀ l, l ≠ .closeArray → state.step l = start stack l

theorem enters_value (stack : List Frame) : (value stack).Enters stack := fun _ _ => rfl

theorem enters_firstItem (stack : List Frame) : (firstItem stack).Enters (.array [] :: stack) := by
  intro l hl
  rw [step]
  exact hl

theorem Enters.foldlM {state : State} {stack : List Frame} (hstate : state.Enters stack)
    {ls : List Lexeme} {d : Document}
    (h : ls.foldlM step (.value stack) = some (.complete stack d)) :
    ls.foldlM step state = some (.complete stack d) := by
  cases ls with
  | nil => cases h
  | cons l ls =>
    rw [List.foldlM_cons] at h ⊢
    have hl : l ≠ .closeArray := by
      rintro rfl
      cases h
    rw [hstate l hl]
    exact h

end State

/-- The lexemes of a text that is a document. -/
theorem lexemes_of_read? {text : String} {d : Document} (h : read? text = some d) :
    ∃ ls, lexemes? text.toList = some ls ∧
      ls.foldlM State.step (.value []) = some (.complete [] d) := by
  obtain ⟨ls, hls, hd⟩ := Option.bind_eq_some_iff.1 h
  refine ⟨ls, hls, ?_⟩
  unfold ofLexemes? at hd
  split at hd
  · next v hv =>
    obtain rfl : v = d := Option.some.inj hd
    exact hv
  · cases hd

/-- A text that leads from the start to a complete document. -/
theorem read?_of_resume {text : String} {d : Document}
    (h : State.resume (.value []) text.toList = some (.complete [] d)) : read? text = some d := by
  obtain ⟨ls, hls, hd⟩ := Option.bind_eq_some_iff.1 h
  rw [read?, hls]
  show ofLexemes? ls = some d
  rw [ofLexemes?, hd]

/-- A document on its own is that document also inside a larger text. -/
theorem resume_document {text : String} {d : Document} (h : read? text = some d)
    {rest : List Char} (hrest : Delimiting rest) {state : State} {stack : List Frame}
    (hstate : state.Enters stack) :
    state.resume (text.toList ++ rest) = State.resume (.complete stack d) rest := by
  obtain ⟨ls, hls, hd⟩ := lexemes_of_read? h
  have honto : ls.foldlM State.step (.value stack) = some (.complete stack d) :=
    State.foldlM_onto stack hd
  rw [State.resume_append hls hrest, hstate.foldlM honto, Option.bind_some]

end RecordRules.Json.Document

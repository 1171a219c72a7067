import Mathlib.Data.Finset.Card
import RecordRules.Proofs.Cache
import RecordRules.Proofs.Rule.Reading

/-!
# What a cache holds

After any commands a cache holds the rules that were asked for, and could be read, since it
was last emptied (`recent`), each once.  It is emptied by a clear, and by a command that asks
for one rule more than there is room for; that rule is the first of the new ones.

    c = (empty config).run past →
      (c.entries[text]? = some t ↔
        text ∈ accepted config (recent config past) ∧ Rule.parse config.depthLimit text = ok t) ∧
      c.size = (accepted config (recent config past)).card ∧ c.size ≤ config.cacheCapacity

What one command does is said by `AfterGet`: nothing, unless it asks for a new rule.
-/

namespace RecordRules.Cache

/-! ## Specification -/

/-- The text whose rule a command asks for. -/
def Command.text? : Command → Option String
  | .get text => some text
  | .check text _ => some text
  | .clear => none

/-- The texts that the commands ask for and that a rule is read from, each once. -/
def accepted (config : Config) (commands : List Command) : Finset String :=
  (commands.filterMap Command.text?).toFinset.filter fun text =>
    (Rule.parse config.depthLimit text).isOk

/-- The commands since the cache was last emptied, when one more follows.  A clear empties it.
So does a command that asks for one rule more than there is room for, and that command is the
first of the new ones, if there is room for any. -/
def since (config : Config) (recent : List Command) (command : Command) : List Command :=
  if command.text? = none then []
  else if (accepted config (recent ++ [command])).card ≤ config.cacheCapacity then
    recent ++ [command]
  else [command].take config.cacheCapacity

/-- The commands of a run since the cache was last emptied. -/
def recent (config : Config) (commands : List Command) : List Command :=
  commands.foldl (since config) []

/-- What a cache becomes that is asked for the rule of a text. -/
structure AfterGet (config : Config) (c : Cache) (text : String) (after : Cache) : Prop where
  hit : ∀ t, c.entries[text]? = some t → after = c
  refused : ∀ e, Rule.parse config.depthLimit text = .error e → after = c
  noRoom : config.cacheCapacity = 0 → after = c
  added : ∀ t, c.entries[text]? = none → Rule.parse config.depthLimit text = .ok t →
    c.size < config.cacheCapacity →
      after.size = c.size + 1 ∧
      ∀ other, after.entries[other]? = if text = other then some t else c.entries[other]?
  flushed : ∀ t, c.entries[text]? = none → Rule.parse config.depthLimit text = .ok t →
    0 < config.cacheCapacity → config.cacheCapacity ≤ c.size →
      after.size = 1 ∧
      ∀ other, after.entries[other]? = if text = other then some t else none

variable {config : Config} {c : Cache} {text : String} {t : Rule}

/-! ## One command -/

theorem get_of_hit (h : c.entries[text]? = some t) : c.get text = (.ok t, c) := by
  rw [get, h]

theorem get_of_error {e : Error} (hnone : c.entries[text]? = none)
    (h : Rule.parse c.config.depthLimit text = .error e) : c.get text = (.error e, c) := by
  rw [get, hnone]
  dsimp only
  rw [h]

theorem get_of_ok (hnone : c.entries[text]? = none)
    (h : Rule.parse c.config.depthLimit text = .ok t) : c.get text = (.ok t, c.add text t) := by
  rw [get, hnone]
  dsimp only
  rw [h]

theorem add_of_noRoom (h : c.config.cacheCapacity = 0) : c.add text t = c := by
  rw [Cache.add, if_pos h]

theorem entries_add_of_lt (hnone : c.entries[text]? = none) (h : c.size < c.config.cacheCapacity) :
    (c.add text t).entries = c.entries.insert text t := by
  have hroom : ¬ c.config.cacheCapacity = 0 := by omega
  have hkept : ¬ c.config.cacheCapacity ≤ c.entries.size := Nat.not_le_of_lt h
  rw [add_of_absent hnone, if_neg hroom, if_neg hkept]

theorem entries_add_of_le (hnone : c.entries[text]? = none) (hpos : 0 < c.config.cacheCapacity)
    (h : c.config.cacheCapacity ≤ c.size) :
    (c.add text t).entries = (∅ : Std.HashMap String Rule).insert text t := by
  have hroom : ¬ c.config.cacheCapacity = 0 := by omega
  have hflush : c.config.cacheCapacity ≤ c.entries.size := h
  rw [add_of_absent hnone, if_neg hroom, if_pos hflush]

theorem getElem?_entries_insert (entries : Std.HashMap String Rule) (other : String) :
    (entries.insert text t)[other]? = if text = other then some t else entries[other]? := by
  rw [Std.HashMap.getElem?_insert]
  simp

theorem size_entries_insert {entries : Std.HashMap String Rule} (h : entries[text]? = none) :
    (entries.insert text t).size = entries.size + 1 := by
  have hnew : ¬ text ∈ entries := by
    intro hmem
    rw [Std.HashMap.getElem?_eq_some_getElem hmem] at h
    cases h
  rw [Std.HashMap.size_insert, if_neg hnew]

theorem afterGet (hconfig : c.config = config) (text : String) :
    AfterGet config c text (c.get text).2 := by
  subst hconfig
  constructor
  · intro t h
    rw [get_of_hit h]
  · intro e h
    cases hnone : c.entries[text]? with
    | some t => rw [get_of_hit hnone]
    | none => rw [get_of_error hnone h]
  · intro h
    cases hnone : c.entries[text]? with
    | some t => rw [get_of_hit hnone]
    | none =>
      cases hparse : Rule.parse c.config.depthLimit text with
      | error e => rw [get_of_error hnone hparse]
      | ok t =>
        rw [get_of_ok hnone hparse]
        exact add_of_noRoom h
  · intro t hnone hparse hroom
    rw [get_of_ok hnone hparse, size, entries_add_of_lt hnone hroom]
    exact ⟨size_entries_insert hnone, getElem?_entries_insert c.entries⟩
  · intro t hnone hparse hpos hfull
    rw [get_of_ok hnone hparse, size, entries_add_of_le hnone hpos hfull]
    refine ⟨size_entries_insert (by simp), fun other => ?_⟩
    rw [getElem?_entries_insert]
    simp

/-- A check leaves the cache as asking for its rule does, whatever becomes of the verdict.  No
rule is read from a blank text, so there is nothing to ask for. -/
theorem check_snd (c : Cache) (text : String) (record : Record) :
    (c.check text record).2 = (c.get text).2 := by
  unfold check
  split
  · next hblank =>
    have hrefused : Rule.parse c.config.depthLimit text = .error (.badSyntax .emptyRule) :=
      Rule.parse_eq_emptyRule_iff.2 hblank
    exact ((afterGet rfl text).refused _ hrefused).symm
  · rcases c.get text with ⟨_ | t, after⟩
    · rfl
    · rfl

/-! ## Accepted texts -/

theorem mem_accepted_iff {commands : List Command} :
    text ∈ accepted config commands ↔
      (∃ command ∈ commands, command.text? = some text) ∧
        ∃ t, Rule.parse config.depthLimit text = .ok t := by
  rw [accepted, Finset.mem_filter, List.mem_toFinset, List.mem_filterMap, isOk_iff]

theorem accepted_nil : accepted config [] = ∅ := rfl

theorem mem_accepted_append_iff {commands : List Command} {command : Command} :
    text ∈ accepted config (commands ++ [command]) ↔
      text ∈ accepted config commands ∨
        command.text? = some text ∧ ∃ t, Rule.parse config.depthLimit text = .ok t := by
  simp only [mem_accepted_iff, List.mem_append, List.mem_singleton, or_and_right, exists_or,
    exists_eq_left]

theorem accepted_append_of_error {commands : List Command} {command : Command} {e : Error}
    (htext : command.text? = some text) (h : Rule.parse config.depthLimit text = .error e) :
    accepted config (commands ++ [command]) = accepted config commands := by
  ext other
  rw [mem_accepted_append_iff, or_iff_left]
  rintro ⟨hother, t, ht⟩
  obtain rfl : text = other := Option.some.inj (htext.symm.trans hother)
  cases h.symm.trans ht

theorem accepted_append_of_ok {commands : List Command} {command : Command}
    (htext : command.text? = some text) (h : Rule.parse config.depthLimit text = .ok t) :
    accepted config (commands ++ [command]) = insert text (accepted config commands) := by
  ext other
  rw [mem_accepted_append_iff, Finset.mem_insert, or_comm, htext]
  apply or_congr_left
  constructor
  · rintro ⟨hother, -⟩
    exact (Option.some.inj hother).symm
  · rintro rfl
    exact ⟨rfl, t, h⟩

/-! ## Steps and runs -/

/-- The cache keeps to the configuration and holds exactly what the commands ask for and get,
for which there is room. -/
structure Holds (config : Config) (c : Cache) (commands : List Command) : Prop where
  config_eq : c.config = config
  entry_iff : ∀ text t, c.entries[text]? = some t ↔
    text ∈ accepted config commands ∧ Rule.parse config.depthLimit text = .ok t
  size_eq : c.size = (accepted config commands).card
  size_le : c.size ≤ config.cacheCapacity

variable {commands : List Command}

theorem Holds.sound (h : c.Holds config commands) : c.Sound config :=
  ⟨h.config_eq, fun text t ht => ((h.entry_iff text t).1 ht).2⟩

theorem holds_of_empty (hconfig : c.config = config) (hentries : c.entries = ∅) :
    c.Holds config [] := by
  refine ⟨hconfig, fun text t => ?_, ?_, ?_⟩
  · rw [hentries, accepted_nil]
    simp
  · rw [size, hentries, accepted_nil]
    rfl
  · rw [size, hentries]
    exact Nat.zero_le _

/-- What a cache holds is known by the texts alone. -/
theorem Holds.congr {commands' : List Command} (h : c.Holds config commands)
    (haccepted : accepted config commands' = accepted config commands) :
    c.Holds config commands' := by
  refine ⟨h.config_eq, ?_, ?_, h.size_le⟩
  · rw [haccepted]
    exact h.entry_iff
  · rw [haccepted]
    exact h.size_eq

theorem Holds.getElem?_eq_none (h : c.Holds config commands)
    (hnew : text ∉ accepted config commands) : c.entries[text]? = none := by
  rw [Option.eq_none_iff_forall_ne_some]
  intro t ht
  exact hnew ((h.entry_iff text t).1 ht).1

/-- A command that asks for nothing new empties nothing. -/
theorem Holds.since_of_eq (h : c.Holds config commands) {command : Command}
    (htext : command.text? = some text)
    (hsame : accepted config (commands ++ [command]) = accepted config commands) :
    c.Holds config (since config commands command) := by
  have hfits : (accepted config (commands ++ [command])).card ≤ config.cacheCapacity := by
    rw [hsame, ← h.size_eq]
    exact h.size_le
  rw [since, if_neg (by simp [htext]), if_pos hfits]
  exact h.congr hsame

/-- One more rule in a cache that has room for it. -/
theorem Holds.of_added (h : c.Holds config commands) {later : List Command} {after : Cache}
    (hconfig : after.config = config) (hnew : text ∉ accepted config commands)
    (hparse : Rule.parse config.depthLimit text = .ok t)
    (hlater : accepted config later = insert text (accepted config commands))
    (hroom : c.size < config.cacheCapacity) (hsize : after.size = c.size + 1)
    (hentry : ∀ other, after.entries[other]? = if text = other then some t else c.entries[other]?) :
    after.Holds config later := by
  refine ⟨hconfig, fun other u => ?_, ?_, by omega⟩
  · rw [hentry, hlater, Finset.mem_insert]
    by_cases heq : text = other
    · subst heq
      simp [hparse]
    · rw [if_neg heq, h.entry_iff, or_iff_right (Ne.symm heq)]
  · rw [hlater, Finset.card_insert_of_notMem hnew, ← h.size_eq, hsize]

/-- A new rule is added to the cache as it is, or, if that is full, to an empty one.  A cache
without any room stays empty. -/
theorem Holds.get_of_new (h : c.Holds config commands) {command : Command}
    (htext : command.text? = some text) (hparse : Rule.parse config.depthLimit text = .ok t)
    (hnew : text ∉ accepted config commands) :
    (c.get text).2.Holds config (since config commands command) := by
  have hget : AfterGet config c text (c.get text).2 := afterGet h.config_eq text
  have hconfig : (c.get text).2.config = config := (h.sound.get text).config_eq
  have hnone : c.entries[text]? = none := h.getElem?_eq_none hnew
  have hlater : accepted config (commands ++ [command]) = insert text (accepted config commands) :=
    accepted_append_of_ok htext hparse
  have hcard : (accepted config (commands ++ [command])).card = c.size + 1 := by
    rw [hlater, Finset.card_insert_of_notMem hnew, h.size_eq]
  rw [since, if_neg (by simp [htext])]
  by_cases hroom : c.size < config.cacheCapacity
  · obtain ⟨hsize, hentry⟩ := hget.added t hnone hparse hroom
    rw [if_pos (by omega)]
    exact h.of_added hconfig hnew hparse hlater hroom hsize hentry
  · rw [if_neg (by omega)]
    by_cases hpos : 0 < config.cacheCapacity
    · -- a flush is an addition to the cache that a clear leaves
      obtain ⟨hsize, hentry⟩ := hget.flushed t hnone hparse hpos (by omega)
      have hempty : c.clear.Holds config [] := holds_of_empty h.config_eq rfl
      have hsingle : accepted config ([] ++ [command]) = insert text (accepted config []) :=
        accepted_append_of_ok htext hparse
      rw [List.take_of_length_le (by rw [List.length_singleton]; omega)]
      exact hempty.of_added hconfig (Finset.notMem_empty text) hparse hsingle hpos hsize
        (by simpa [clear] using hentry)
    · have hzero : config.cacheCapacity = 0 := by omega
      have hnothing : accepted config commands = ∅ := by
        have hle := h.size_le
        rw [hzero, h.size_eq, Nat.le_zero, Finset.card_eq_zero] at hle
        exact hle
      rw [hget.noRoom hzero, hzero, List.take_zero]
      exact h.congr hnothing.symm

theorem Holds.get (h : c.Holds config commands) {command : Command}
    (htext : command.text? = some text) :
    (c.get text).2.Holds config (since config commands command) := by
  have hget : AfterGet config c text (c.get text).2 := afterGet h.config_eq text
  cases hparse : Rule.parse config.depthLimit text with
  | error e =>
    rw [hget.refused e hparse]
    exact h.since_of_eq htext (accepted_append_of_error htext hparse)
  | ok t =>
    by_cases hmem : text ∈ accepted config commands
    · have hsame : accepted config (commands ++ [command]) = accepted config commands := by
        rw [accepted_append_of_ok htext hparse, Finset.insert_eq_of_mem hmem]
      rw [hget.hit t ((h.entry_iff text t).2 ⟨hmem, hparse⟩)]
      exact h.since_of_eq htext hsame
    · exact h.get_of_new htext hparse hmem

theorem Holds.perform (h : c.Holds config commands) (command : Command) :
    (c.perform command).2.Holds config (since config commands command) := by
  cases command with
  | get text => exact h.get rfl
  | check text record =>
    show (c.check text record).2.Holds config _
    rw [check_snd]
    exact h.get rfl
  | clear => exact holds_of_empty h.config_eq rfl

theorem Holds.run (h : c.Holds config commands) (later : List Command) :
    (c.run later).Holds config (later.foldl (since config) commands) := by
  induction later generalizing c commands with
  | nil => exact h
  | cons command later ih => exact ih (h.perform command)

theorem holds_run (config : Config) (past : List Command) :
    ((empty config).run past).Holds config (recent config past) := by
  have hempty : (empty config).Holds config [] := holds_of_empty rfl rfl
  exact hempty.run past

/-! ## The recent commands are the last ones -/

theorem since_suffix (config : Config) (commands : List Command) (command : Command) :
    since config commands command <:+ commands ++ [command] := by
  unfold since
  split
  · exact List.nil_suffix
  · split
    · exact List.suffix_refl _
    · cases config.cacheCapacity with
      | zero => exact List.nil_suffix
      | succ n =>
        rw [List.take_of_length_le (by rw [List.length_singleton]; omega)]
        exact List.suffix_append commands [command]

theorem foldl_since_suffix (config : Config) (commands later : List Command) :
    later.foldl (since config) commands <:+ commands ++ later := by
  induction later generalizing commands with
  | nil =>
    rw [List.append_nil]
    exact List.suffix_refl commands
  | cons command later ih =>
    obtain ⟨early, hearly⟩ := since_suffix config commands command
    have hstep : since config commands command ++ later <:+ commands ++ command :: later := by
      refine ⟨early, ?_⟩
      rw [← List.append_assoc, hearly, List.append_assoc, List.singleton_append]
    exact (ih _).trans hstep

theorem recent_suffix (config : Config) (past : List Command) : recent config past <:+ past :=
  foldl_since_suffix config [] past

/-! ## The contents -/

/-- **Contents of a cache.**  After any commands the cache holds no more rules than there is
room for.  Asking for a rule changes nothing if the rule is there, if there is none, or if
there is no room at all; else it adds just that rule, or leaves just that rule if the cache
was full.  A check does the same, whatever its verdict, and a clear leaves nothing.  So the
cache holds just the rules that were asked for and read since it was last emptied. -/
theorem run_contents (config : Config) (past : List Command) :
    let c := (empty config).run past
    c.size ≤ config.cacheCapacity ∧
    (∀ text, AfterGet config c text (c.perform (.get text)).2) ∧
    (∀ text record, (c.perform (.check text record)).2 = (c.perform (.get text)).2) ∧
    (∀ text record, Text.isBlankText text → (c.perform (.check text record)).2 = c) ∧
    (c.perform .clear).2 = empty config ∧
    recent config past <:+ past ∧
    (∀ text t, c.entries[text]? = some t ↔
      text ∈ accepted config (recent config past) ∧
        Rule.parse config.depthLimit text = .ok t) ∧
    c.size = (accepted config (recent config past)).card := by
  intro c
  have h : c.Holds config (recent config past) := holds_run config past
  have hget : ∀ text, AfterGet config c text (c.get text).2 := afterGet h.config_eq
  have hcheck : ∀ text record, (c.check text record).2 = (c.get text).2 := check_snd c
  refine ⟨h.size_le, hget, hcheck, ?_, ?_, recent_suffix config past, h.entry_iff, h.size_eq⟩
  · intro text record hblank
    show (c.check text record).2 = c
    rw [check, if_pos hblank]
  · show (⟨c.config, ∅⟩ : Cache) = ⟨config, ∅⟩
    rw [h.config_eq]

end RecordRules.Cache

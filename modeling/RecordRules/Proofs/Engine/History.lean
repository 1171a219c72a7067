import RecordRules.Engine.Command
import RecordRules.Proofs.Cache

/-!
# Engines with a past

Whatever was asked of an engine, its cache is sound for the configuration it was
made with (`sound_run`), so its answers are decided by that configuration alone:

    (new config).answers commands = commands.map fun c => ((new config).perform c).1
-/

namespace RecordRules.Engine

/-- The engine keeps to the configuration, and its cache holds what texts write. -/
def Sound (config : Config) (e : Engine) : Prop := e.cache.Sound config

variable {config : Config} {e : Engine}

theorem sound_new (config : Config) : (Engine.new config).Sound config := Cache.sound_empty config

theorem Sound.config_eq (h : e.Sound config) : e.config = config := Cache.Sound.config_eq h

/-! ## Answers -/

theorem parse_fst (h : e.Sound config) (text : String) :
    (e.parse text).1 = Rule.parse config.depthLimit text := Cache.get_fst h text

theorem create_fst (h : e.Sound config) (text : String) :
    (e.create text).1 = (Rule.parse config.depthLimit text).map Rule.toMapping := by
  rw [← parse_fst h text]
  rfl

theorem check_fst (h : e.Sound config) (text : String) (record : Record) :
    (e.check text record).1 =
      if Text.isBlankText text then .ok true
      else Rule.parse config.depthLimit text >>= fun t => t.evaluate config.depthLimit record :=
  Cache.check_fst h text record

/-! ## Steps and runs -/

theorem Sound.parse (h : e.Sound config) (text : String) : (e.parse text).2.Sound config :=
  Cache.Sound.get h text

theorem Sound.createText (h : e.Sound config) (body : String) :
    (e.createText body).2.Sound config := by
  unfold Engine.createText
  cases CreateRequest.parse body with
  | error error => exact h
  | ok request => exact h.parse request.rule

/-- No command, with whatever arguments, makes the engine unsound. -/
theorem Sound.perform (h : e.Sound config) (command : Command) :
    (e.perform command).2.Sound config := by
  cases command with
  | parse text => exact h.parse text
  | create text => exact h.parse text
  | check text record => exact Cache.Sound.check h text record
  | createText body => exact h.createText body
  | clear => exact Cache.Sound.clear h
  | ofMapping | evaluate | evaluateMapping | evaluateText => exact h

theorem Sound.run (h : e.Sound config) (commands : List Command) :
    (e.run commands).Sound config := by
  induction commands generalizing e with
  | nil => exact h
  | cons command commands ih => exact ih (h.perform command)

/-- An engine is sound for the configuration it was made with, whatever its past. -/
theorem sound_run (config : Config) (past : List Command) :
    ((Engine.new config).run past).Sound config :=
  (sound_new config).run past

/-! ## Answers without a past -/

theorem createText_congr {e' : Engine} (h : e.Sound config) (h' : e'.Sound config)
    (body : String) : (e.createText body).1 = (e'.createText body).1 := by
  unfold Engine.createText
  cases CreateRequest.parse body with
  | error error => rfl
  | ok request =>
    show (e.create request.rule).1.map Json.render = (e'.create request.rule).1.map Json.render
    rw [create_fst h, create_fst h']

/-- Engines that are sound for one configuration answer alike.  Texts are answered from
the cache, which holds what they write; all else is answered from the settings. -/
theorem perform_congr {e' : Engine} (h : e.Sound config) (h' : e'.Sound config)
    (command : Command) : (e.perform command).1 = (e'.perform command).1 := by
  have hconfig : e.config = e'.config := h.config_eq.trans h'.config_eq.symm
  cases command with
  | parse text =>
    show (e.parse text).1.map _ = (e'.parse text).1.map _
    rw [parse_fst h, parse_fst h']
  | create text =>
    show (e.create text).1.map _ = (e'.create text).1.map _
    rw [create_fst h, create_fst h']
  | check text record =>
    show (e.check text record).1.map _ = (e'.check text record).1.map _
    rw [check_fst h, check_fst h']
  | createText body =>
    show (e.createText body).1.map _ = (e'.createText body).1.map _
    rw [createText_congr h h']
  | ofMapping mapping =>
    show (Rule.ofMapping e.config.depthLimit mapping).map _ = _
    rw [hconfig]
    rfl
  | evaluate t record =>
    show (t.evaluate e.config.depthLimit record).map _ = _
    rw [hconfig]
    rfl
  | evaluateMapping mapping record =>
    simp only [perform, evaluateMapping, Engine.ofMapping, hconfig]
  | evaluateText body =>
    simp only [perform, evaluateText, serveEvaluate, evaluateMapping, Engine.ofMapping, hconfig]
  | clear => rfl

theorem Sound.answers_eq (h : e.Sound config) (commands : List Command) :
    e.answers commands = commands.map fun command => ((Engine.new config).perform command).1 := by
  induction commands generalizing e with
  | nil => rfl
  | cons command commands ih =>
    show (e.perform command).1 :: (e.perform command).2.answers commands = _
    rw [ih (h.perform command), perform_congr h (sound_new config), List.map_cons]

/-- **The past of an engine.**  Each of any commands, one after the other, is answered as
a new engine of the same configuration answers it.  Whatever was asked before, the cache
holds under a text only the rule that the text writes. -/
theorem answers_eq_map_new (config : Config) (commands : List Command) :
    (Engine.new config).answers commands =
      commands.map (fun command => ((Engine.new config).perform command).1) ∧
    ∀ text t, ((Engine.new config).run commands).cache.entries[text]? = some t →
      Rule.parse config.depthLimit text = .ok t :=
  ⟨(sound_new config).answers_eq commands, (sound_run config commands).parse_eq⟩

end RecordRules.Engine

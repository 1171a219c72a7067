import RecordRules.Cache
import RecordRules.Proofs.Answer

/-!
# What a cache answers

A cache holds under each text the rule that the text writes (`Cache.Sound`), from
its start and through everything that is asked of it.  So its answers are those of
reading the text afresh:

    c.Sound config → (c.get text).1 = Rule.parse config.depthLimit text        (get_fst)
-/

namespace RecordRules.Cache

/-- The cache keeps to the configuration, and each of its entries is the rule that
its text writes. -/
structure Sound (config : Config) (c : Cache) : Prop where
  config_eq : c.config = config
  parse_eq : ∀ text t, c.entries[text]? = some t → Rule.parse config.depthLimit text = .ok t

/-! ## Steps -/

variable {config : Config} {c : Cache}

theorem sound_empty (config : Config) : (empty config).Sound config := by
  refine ⟨rfl, fun text t h => ?_⟩
  simp [empty] at h

theorem Sound.clear (h : c.Sound config) : c.clear.Sound config := by
  refine ⟨h.config_eq, fun text t ht => ?_⟩
  simp [Cache.clear] at ht

/-- Adding keeps a cache sound, whether or not it empties the cache first. -/
theorem Sound.add (h : c.Sound config) {text : String} {t : Rule}
    (ht : Rule.parse config.depthLimit text = .ok t) : (c.add text t).Sound config := by
  unfold Cache.add
  split
  · exact h
  · refine ⟨h.config_eq, fun other u hu => ?_⟩
    have hkept : text = other ∧ t = u ∨ c.entries[other]? = some u := by
      dsimp only at hu
      rw [Std.HashMap.getElem?_insert] at hu
      split at hu
      · next heq => exact .inl ⟨by simpa using heq, by simpa using hu⟩
      · split at hu
        · simp at hu
        · exact .inr hu
    rcases hkept with ⟨rfl, rfl⟩ | hother
    · exact ht
    · exact h.parse_eq other u hother

theorem get_fst (h : c.Sound config) (text : String) :
    (c.get text).1 = Rule.parse config.depthLimit text := by
  unfold get
  split
  · next t ht => exact (h.parse_eq text t ht).symm
  · rw [h.config_eq]
    cases Rule.parse config.depthLimit text <;> rfl

theorem Sound.get (h : c.Sound config) (text : String) : (c.get text).2.Sound config := by
  unfold Cache.get
  split
  · exact h
  · rw [h.config_eq]
    cases hparse : Rule.parse config.depthLimit text with
    | error e => exact h
    | ok t => exact h.add hparse

/-- A text that is not blank is read afresh and evaluated. -/
theorem check_fst (h : c.Sound config) (text : String) (record : Record) :
    (c.check text record).1 =
      if Text.isBlankText text then .ok true
      else Rule.parse config.depthLimit text >>= fun t => t.evaluate config.depthLimit record := by
  unfold check
  split
  · rfl
  · have hafter := (h.get text).config_eq
    rw [← get_fst h text]
    rcases hg : c.get text with ⟨e | t, c'⟩
    · rfl
    · rw [hg] at hafter
      rw [← hafter]
      rfl

theorem Sound.check (h : c.Sound config) (text : String) (record : Record) :
    (c.check text record).2.Sound config := by
  have hget := h.get text
  unfold Cache.check
  split
  · exact h
  · rcases hg : c.get text with ⟨_ | t, c'⟩ <;> rw [hg] at hget <;> exact hget

end RecordRules.Cache

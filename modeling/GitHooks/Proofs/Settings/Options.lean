/-
**What an option sets.**

A table of settings is read option by option.  An option that is accepted sets one thing: a field of
the layer, or the block of a language, which is itself read option by option.  Everything that is
said of tables that are accepted rests on what a single option does, so that is told here once, as
a relation with a constructor for each kind of option.

Main definitions:

* `Settings.Block.Adds`, `Settings.Layer.Adds` — what an accepted option makes of a block and of a
  layer.

Main results:

* `Settings.Layer.addBlockOption_eq_ok_iff`, `Settings.Layer.addOption_eq_ok_iff` — an option is
  accepted exactly when it sets something, and then it does just that.
-/

import GitHooks.Settings.Layer

set_option relaxedAutoImplicit false
set_option autoImplicit false

namespace GitHooks

namespace Settings

open Config (Fault Value)

variable {source tag : Text} {value : Value} {option : Text × Value}

/-- What an accepted option makes of the block of a language. -/
inductive Block.Adds (block : Block) : Text × Value → Block → Prop where
  | format (t : Text) : Adds block ("format", .text t) { block with format := some t }
  | docstring (b : Bool) : Adds block ("docstr", .boolean b) { block with docstring := some b }

/-- What an accepted option makes of a layer. -/
inductive Layer.Adds (source : Text) (layer : Layer) : Text × Value → Layer → Prop where
  | name (t : Text) : Adds source layer ("name", .text t) { layer with name := some t }
  | format (t : Text) : Adds source layer ("format", .text t) { layer with format := some t }
  | block {tag : Text} {value : Value} {block : Block} (htag : tag ∈ Language.tags)
      (hblock : Layer.blockOf tag source value = .ok block) :
      Adds source layer (tag, value) (layer.setBlock tag block)

namespace Layer

variable {layer next : Layer} {block after : Block}

/-- No language has the tag of another option. -/
theorem not_mem_tags : ("name" : Text) ∉ Language.tags ∧ ("format" : Text) ∉ Language.tags := by
  decide

/-- Where an option is asked for a text, it is one. -/
theorem map_textOf_eq_ok {α : Type} {option : Text} {f : Text → α} {a : α}
    (h : (textOf option source value).map f = .ok a) : ∃ t, value = .text t ∧ f t = a := by
  cases value <;> simp [textOf, Value.text?, Except.map] at h
  exact ⟨_, rfl, h⟩

theorem map_booleanOf_eq_ok {α : Type} {option : Text} {f : Bool → α} {a : α}
    (h : (booleanOf option source value).map f = .ok a) : ∃ b, value = .boolean b ∧ f b = a := by
  cases value <;> simp [booleanOf, Value.boolean?, Except.map] at h
  exact ⟨_, rfl, h⟩

/-- **An option of a block is accepted** exactly when it sets something. -/
theorem addBlockOption_eq_ok_iff :
    addBlockOption tag source block option = .ok after ↔ block.Adds option after := by
  constructor
  · intro h
    obtain ⟨key, value⟩ := option
    simp only [addBlockOption] at h
    split at h
    · next hkey =>
      obtain ⟨t, rfl, rfl⟩ := map_textOf_eq_ok h
      exact hkey ▸ .format t
    · split at h
      · next hkey =>
        obtain ⟨b, rfl, rfl⟩ := map_booleanOf_eq_ok h
        exact hkey ▸ .docstring b
      · cases h
  · rintro (t | b) <;> rfl

/-- **An option of a table is accepted** exactly when it sets something. -/
theorem addOption_eq_ok_iff :
    addOption source layer option = .ok next ↔ layer.Adds source option next := by
  constructor
  · intro h
    obtain ⟨key, value⟩ := option
    simp only [addOption] at h
    split at h
    · next hkey =>
      obtain ⟨t, rfl, rfl⟩ := map_textOf_eq_ok h
      exact hkey ▸ .name t
    · split at h
      · next hkey =>
        obtain ⟨t, rfl, rfl⟩ := map_textOf_eq_ok h
        exact hkey ▸ .format t
      · split at h
        · next htag =>
          cases hblock : blockOf key source value with
          | error fault => rw [hblock] at h; cases h
          | ok block =>
              rw [hblock] at h
              cases h
              exact .block htag hblock
        · cases h
  · rintro (t | t | @⟨tag, value, block, htag, hblock⟩)
    · rfl
    · rfl
    · have hname : tag ≠ "name" := fun heq => not_mem_tags.1 (heq ▸ htag)
      have hformat : tag ≠ "format" := fun heq => not_mem_tags.2 (heq ▸ htag)
      simp only [addOption]
      rw [if_neg hname, if_neg hformat, if_pos htag, hblock]
      rfl

end Layer

end Settings

end GitHooks

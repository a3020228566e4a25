/-
**Formats that have been checked.**

Settings are refused when a format that may be used lacks a placeholder.  The format for the files
of a language is the one in force or that of the block of the language, and both have been
checked by then; so no file meets a format that is refused.

Main results:

* `Settings.check_forLanguage` — the format for the files of a language passes its check.
-/

import GitHooks.Settings.Resolved

set_option relaxedAutoImplicit false
set_option autoImplicit false

namespace GitHooks

namespace Settings

variable {format : Text} {languages : Entries Block}

theorem checkFormat_eq_ok_iff :
    checkFormat format = Except.ok () ↔ NoticeFormat.check format = Except.ok () := by
  rw [checkFormat]
  cases NoticeFormat.check format with
  | error fault =>
      constructor
      · rintro ⟨⟩
      · rintro ⟨⟩
  | ok _ => exact ⟨fun _ => rfl, fun _ => rfl⟩

theorem checkBlocks_cons (tag : Text) (block : Block) (languages : Entries Block) :
    checkBlocks ((tag, block) :: languages)
      = match block.format with
        | some format => (checkFormat format).bind fun _ => checkBlocks languages
        | none => checkBlocks languages := by
  cases hf : block.format with
  | some format =>
      simp only [checkBlocks, List.forM_eq_forM, List.forM_cons, hf]
      rfl
  | none =>
      simp only [checkBlocks, List.forM_eq_forM, List.forM_cons, hf]
      rfl

/-- Where the blocks have been checked, the format of every block has. -/
theorem checkFormat_of_checkBlocks (h : checkBlocks languages = Except.ok ()) {tag : Text}
    {block : Block} (hb : Entries.get? tag languages = some block)
    (hf : block.format = some format) : checkFormat format = Except.ok () := by
  induction languages with
  | nil => simp at hb
  | cons entry languages ih =>
      obtain ⟨other, head⟩ := entry
      -- the head is fine and so are the blocks behind it
      have hcons : (∀ f, head.format = some f → checkFormat f = Except.ok ())
          ∧ checkBlocks languages = Except.ok () := by
        rw [checkBlocks_cons] at h
        cases hh : head.format with
        | none =>
            rw [hh] at h
            exact ⟨fun f he => by simp at he, h⟩
        | some f =>
            rw [hh] at h
            dsimp only at h
            cases hc : checkFormat f with
            | error e => simp [hc, Except.bind] at h
            | ok _ =>
                rw [hc] at h
                refine ⟨fun g hg => ?_, h⟩
                obtain rfl := Option.some.inj hg
                exact hc
      rw [Entries.get?_cons] at hb
      split at hb
      · obtain rfl := Option.some.inj hb
        exact hcons.1 format hf
      · exact ih hcons.2 hb

/-- What has been checked of settings that are in force. -/
theorem checks_of_resolve {commandLine files : Layer} {identity : Option Text}
    {resolved : Resolved} (h : resolve commandLine files identity = Except.ok resolved) :
    checkFormat resolved.format = Except.ok ()
      ∧ (resolved.formatFromCommandLine = false →
        checkBlocks resolved.languages = Except.ok ()) := by
  simp only [resolve] at h
  split at h
  · simp [throw, throwThe, MonadExceptOf.throw] at h
  · next name hname =>
    generalize (commandLine.or files).format.getD NoticeFormat.standard = format at h
    cases hc : checkFormat format with
    | error e => simp [hc, bind, Except.bind] at h
    | ok _ =>
        -- a format from the command line is in force everywhere, so that no block is asked
        cases hcl : commandLine.format with
        | some given =>
            simp [hc, hcl, bind, Except.bind, pure, Except.pure] at h
            subst h
            exact ⟨hc, fun hf => by simp at hf⟩
        | none =>
            cases hb : checkBlocks (commandLine.or files).languages with
            | error e => simp [hc, hcl, hb, bind, Except.bind] at h
            | ok _ =>
                simp [hc, hcl, hb, bind, Except.bind, pure, Except.pure] at h
                subst h
                exact ⟨hc, fun _ => hb⟩

/-- **The format for the files of a language passes its check.** -/
theorem check_forLanguage {commandLine files : Layer} {identity : Option Text}
    {resolved : Resolved} (h : resolve commandLine files identity = Except.ok resolved)
    (language : Language) :
    NoticeFormat.check (resolved.forLanguage language).format = Except.ok () := by
  obtain ⟨hformat, hblocks⟩ := checks_of_resolve h
  rw [← checkFormat_eq_ok_iff, Resolved.forLanguage, Resolved.formatFor]
  cases hcl : resolved.formatFromCommandLine with
  | true => exact hformat
  | false =>
      cases hb : (Entries.get? language.tag resolved.languages).bind Block.format with
      | none => simpa [hb] using hformat
      | some format =>
          obtain ⟨block, hget, hf⟩ := Option.bind_eq_some_iff.1 hb
          simpa [hb] using checkFormat_of_checkBlocks (hblocks hcl) hget hf

end Settings

end GitHooks

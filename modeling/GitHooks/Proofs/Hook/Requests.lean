/-
**Requests.**

A hook answers with help or with its version only where an argument asks for that, by a long name
or by a letter, which may stand among others.  Everything else that ends the reading of a command
line is a misuse.

Main definitions:

* `CommandLine.Asks` — what an argument asks for instead of a run.

Main results:

* `CommandLine.asks_of_step`, `CommandLine.asks_of_parse` — where the reading ends, unless with a
  misuse, an argument asks for it;
* `Hook.run_ne_help`, `Hook.run_ne_version` — without such an argument there is no such answer.
-/

import GitHooks.Hook
import GitHooks.Proofs.Text.Affix

set_option relaxedAutoImplicit false
set_option autoImplicit false

namespace GitHooks

open Text

namespace CommandLine

variable {grammar : Grammar} {state : State} {argument long value body letters : Text} {stop : Stop}

/-- What an argument asks for instead of a run. -/
inductive Asks : Text → Stop → Prop where
  | help : Asks "--help" .help
  | version : Asks "--version" .version
  | helpLetter {letters : Text} (hfirst : letters.head? ≠ some '-') (hletter : 'h' ∈ letters) :
      Asks ('-' :: letters) .help
  | versionLetter {letters : Text} (hfirst : letters.head? ≠ some '-') (hletter : 'V' ∈ letters) :
      Asks ('-' :: letters) .version

/-! ### One argument -/

theorem eq_misuse_of_give (h : state.give long value = .error stop) : stop = .misuse := by
  rw [State.give] at h
  split at h
  · exact (Except.error.inj h).symm
  · exact nomatch h

theorem eq_misuse_of_addOperand (h : state.addOperand grammar argument = .error stop) :
    stop = .misuse := by
  rw [State.addOperand] at h
  split at h
  · exact (Except.error.inj h).symm
  · exact nomatch h

theorem eq_misuse_of_readPlain (h : readPlain grammar state argument = .error stop) :
    stop = .misuse := by
  rw [readPlain] at h
  split at h
  · exact eq_misuse_of_give h
  · exact eq_misuse_of_addOperand h

/-- A switch that is looked up by its long name is read or misunderstood. -/
theorem eq_misuse_of_find? {given : Option Text}
    (h : (match grammar.switches.find? fun switch => switch.long = long with
      | none => .error .misuse
      | some switch =>
        match switch.takesValue, given with
        | true, some value => state.give long value
        | true, none => .ok { state with pending := some long }
        | false, some _ => .error .misuse
        | false, none => state.give long []) = Except.error stop) : stop = .misuse := by
  split at h
  · exact (Except.error.inj h).symm
  · split at h
    · exact eq_misuse_of_give h
    · exact nomatch h
    · exact (Except.error.inj h).symm
    · exact eq_misuse_of_give h

/-- A long name that is no request is read or misunderstood. -/
theorem asks_of_readLong (h : readLong grammar state body = .error stop) :
    stop = .misuse ∨ Asks ("--" ++ body) stop := by
  rw [readLong] at h
  cases hcut : cutWhere? (· == '=') body with
  | none =>
      -- the name is all there is
      simp only [hcut] at h
      split at h
      · next hbody => exact .inr (Except.error.inj h ▸ hbody ▸ .help)
      · split at h
        · next hbody => exact .inr (Except.error.inj h ▸ hbody ▸ .version)
        · exact .inl (eq_misuse_of_find? h)
  | some cut =>
      -- a request takes no value
      simp only [hcut] at h
      split at h
      · exact .inl (Except.error.inj h).symm
      · split at h
        · exact .inl (Except.error.inj h).symm
        · exact .inl (eq_misuse_of_find? h)

/-- Letters among which there is no request are read or misunderstood. -/
theorem asks_of_readLetters (h : readLetters grammar state letters = .error stop) :
    stop = .misuse ∨ (stop = .help ∧ 'h' ∈ letters) ∨ (stop = .version ∧ 'V' ∈ letters) := by
  induction letters generalizing state with
  | nil => exact nomatch h
  | cons letter rest ih =>
      rw [readLetters] at h
      split at h
      · next hletter =>
        exact .inr (.inl ⟨(Except.error.inj h).symm, hletter ▸ List.mem_cons_self⟩)
      split at h
      · next hletter =>
        exact .inr (.inr ⟨(Except.error.inj h).symm, hletter ▸ List.mem_cons_self⟩)
      split at h
      · exact .inl (Except.error.inj h).symm
      next switch _ =>
        split at h
        · -- the letter is a switch, and what follows it is read as well
          cases hgive : state.give switch.long [] with
          | error first =>
              rw [hgive] at h
              exact .inl ((Except.error.inj h).symm.trans (eq_misuse_of_give hgive))
          | ok next =>
              rw [hgive] at h
              rcases ih h with hmisuse | ⟨hstop, hmem⟩ | ⟨hstop, hmem⟩
              · exact .inl hmisuse
              · exact .inr (.inl ⟨hstop, List.mem_cons_of_mem _ hmem⟩)
              · exact .inr (.inr ⟨hstop, List.mem_cons_of_mem _ hmem⟩)
        split at h
        · exact nomatch h
        · exact .inl (eq_misuse_of_give h)

theorem dropLeading?_hyphens (letters : Text) :
    dropLeading? "--" ('-' :: letters)
      = if letters.head? = some '-' then some letters.tail else none := by
  cases letters with
  | nil => rfl
  | cons letter rest =>
      by_cases h : letter = '-'
      · subst h
        simp [dropLeading?]
      · simp [dropLeading?, h, Ne.symm h]

/-- **An argument that is no request is read or misunderstood.** -/
theorem asks_of_step (h : step grammar state argument = .error stop) :
    stop = .misuse ∨ Asks argument stop := by
  rw [step] at h
  split at h
  · exact .inl (eq_misuse_of_addOperand h)
  split at h
  · exact .inl (eq_misuse_of_readPlain h)
  split at h
  · exact .inl (Except.error.inj h).symm
  next hswitch _ =>
    rw [Bool.not_eq_true', Bool.not_eq_false, isSwitch, Bool.and_eq_true] at hswitch
    obtain ⟨letters, rfl⟩ := startsWith_iff.1 hswitch.1
    have hargument : "-" ++ letters = '-' :: letters := rfl
    rw [hargument, dropLeading?_hyphens] at h
    rw [hargument]
    by_cases hfirst : letters.head? = some '-'
    · obtain ⟨body, rfl⟩ := List.head?_eq_some_iff.1 hfirst
      rw [if_pos hfirst, List.tail_cons] at h
      cases body with
      | nil => exact nomatch h
      | cons letter rest => exact asks_of_readLong h
    · rw [if_neg hfirst] at h
      rcases asks_of_readLetters h with hmisuse | ⟨rfl, hletter⟩ | ⟨rfl, hletter⟩
      · exact .inl hmisuse
      · exact .inr (.helpLetter hfirst hletter)
      · exact .inr (.versionLetter hfirst hletter)

/-! ### All arguments -/

theorem asks_of_foldlM {arguments : List Text}
    (h : arguments.foldlM (step grammar) state = .error stop) :
    stop = .misuse ∨ ∃ argument ∈ arguments, Asks argument stop := by
  induction arguments generalizing state with
  | nil => exact nomatch h
  | cons argument rest ih =>
      rw [List.foldlM_cons] at h
      cases hstep : step grammar state argument with
      | error first =>
          rw [hstep] at h
          obtain rfl : first = stop := Except.error.inj h
          exact (asks_of_step hstep).imp_right fun hasks => ⟨argument, List.mem_cons_self, hasks⟩
      | ok next =>
          rw [hstep] at h
          refine (ih h).imp_right ?_
          rintro ⟨other, hother, hasks⟩
          exact ⟨other, List.mem_cons_of_mem _ hother, hasks⟩

/-- **Where the reading of a command line ends, unless with a misuse, an argument asks for it.** -/
theorem asks_of_parse {arguments : List Text} (h : parse grammar arguments = .error stop) :
    stop = .misuse ∨ ∃ argument ∈ arguments, Asks argument stop := by
  rw [parse] at h
  cases hread : arguments.foldlM (step grammar) State.start with
  | error first =>
      rw [hread] at h
      obtain rfl : first = stop := Except.error.inj h
      exact asks_of_foldlM hread
  | ok state =>
      rw [hread] at h
      change finish grammar state = .error stop at h
      rw [finish] at h
      split at h
      · exact .inl (Except.error.inj h).symm
      · exact nomatch h

/-- Where no argument asks for it, the reading does not end with help or with the version. -/
theorem parse_ne_of_not_asks {arguments : List Text} (hstop : stop ≠ .misuse)
    (h : ∀ argument ∈ arguments, ¬ Asks argument stop) :
    parse grammar arguments ≠ .error stop := by
  intro hparse
  rcases asks_of_parse hparse with hmisuse | ⟨argument, hmem, hasks⟩
  · exact hstop hmisuse
  · exact h argument hmem hasks

end CommandLine

namespace Hook

variable {hook : Hook} {site : Site} {tree : FileTree} {arguments : List Text}

/-- Without an argument that asks for it, a hook does not answer with help. -/
theorem run_ne_help (h : ∀ argument ∈ arguments, ¬ CommandLine.Asks argument .help) :
    hook.run site tree arguments ≠ .help := by
  intro hrun
  rw [run, runOn] at hrun
  split at hrun
  · next hparse => exact CommandLine.parse_ne_of_not_asks (by decide) h hparse
  all_goals exact nomatch hrun

/-- Without an argument that asks for it, a hook does not answer with its version. -/
theorem run_ne_version (h : ∀ argument ∈ arguments, ¬ CommandLine.Asks argument .version) :
    hook.run site tree arguments ≠ .version := by
  intro hrun
  rw [run, runOn] at hrun
  split at hrun
  · exact nomatch hrun
  · next hparse => exact CommandLine.parse_ne_of_not_asks (by decide) h hparse
  all_goals exact nomatch hrun

end Hook

end GitHooks

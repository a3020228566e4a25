/-
**A docstring ends where it ended.**

A notice that is merged into a docstring takes its quote over and is followed by an empty line, by
what the docstring had behind its quote, and by the lines that followed it.  If the lines of the
notice do not hold the quote, the search for the end of the docstring passes them over and then goes
through the same texts as before: what stood behind the quote, and the lines that follow.  So it
takes as many of the following lines as it did, whether it ends on its first line, further down, or
not at all.

Main results:

* `Notice.blockLength_cases` — how far a docstring goes on;
* `Notice.blockLength_merged` — the search for its end, behind the lines of a notice;
* `Notice.docstrings_merged` — the docstring that a notice has been merged into;
* `Notice.merged_extent` — the docstring of a file before and after a notice is merged into it.
-/

import GitHooks.Proofs.Header.Docstring
import GitHooks.Proofs.Notice.Kept

set_option relaxedAutoImplicit false
set_option autoImplicit false

namespace GitHooks

namespace Notice

open Text
open Header

variable {language : Language} {lines following notice : List Text} {settings : NoticeSettings}
  {year : Int} {edit : Edit} {quote remainder : Text}

/-- A remainder that closes a docstring is not blank, so it is kept. -/
theorem remainderLine_of_infix (hq : quote ∈ docstringQuotes) (h : quote <:+: remainder) :
    remainderLine remainder = [remainder] := by
  have hmark := plainMark_of_mem_docstringQuotes hq
  rw [remainderLine, if_neg]
  intro hblank
  exact occursIn_eq_false_iff.1 (occursIn_of_isBlank hmark.solid hmark.ne_nil hblank) h

/-- A remainder that is moved to a line of its own closes a docstring as it did behind the quote. -/
theorem blockLength_remainder (hq : quote ∈ docstringQuotes) (remainder : Text)
    (following : List Text) :
    blockLength quote [] (remainderLine remainder ++ following)
      = (remainderLine remainder).length + blockLength quote remainder following := by
  have hmark := plainMark_of_mem_docstringQuotes hq
  have hnil : occursIn quote [] = false := occursIn_of_isBlank hmark.solid hmark.ne_nil rfl
  rw [remainderLine]
  split
  · next hblank =>
    have hremainder := occursIn_of_isBlank hmark.solid hmark.ne_nil hblank
    rw [List.nil_append, List.length_nil, Nat.zero_add]
    exact blockLength_of_occursIn_eq (hnil.trans hremainder.symm)
  · rw [List.singleton_append, blockLength_cons hnil, List.length_singleton, Nat.add_comm]

/-- A docstring that a notice is merged into goes on until it ended before: the lines of the notice
and the empty line behind them do not close it. -/
theorem blockLength_merged (hq : quote ∈ docstringQuotes) {opening : Text} {more : List Text}
    (hclear : ∀ line ∈ opening :: more, ¬ quote <:+: line) (remainder : Text)
    (following : List Text) :
    blockLength quote opening (more ++ [] :: (remainderLine remainder ++ following))
      = more.length + 1 + (remainderLine remainder).length
        + blockLength quote remainder following := by
  have hopening : occursIn quote opening = false :=
    occursIn_eq_false_iff.2 (hclear opening List.mem_cons_self)
  have hmore : ∀ line ∈ more, occursIn quote line = false := fun line hline =>
    occursIn_eq_false_iff.2 (hclear line (List.mem_cons_of_mem _ hline))
  rw [blockLength_quiet hopening hmore, blockLength_cons hopening, blockLength_remainder hq]
  omega

/-- **How many of the lines that follow a docstring goes on for**: none, if the quote is behind the
opening one; else up to the first line that holds it, or all of them. -/
theorem blockLength_cases (quote remainder : Text) (following : List Text) :
    (quote <:+: remainder → blockLength quote remainder following = 1)
      ∧ (∀ passed closing rest, following = passed ++ closing :: rest →
        (∀ line ∈ remainder :: passed, ¬ quote <:+: line) → quote <:+: closing →
          blockLength quote remainder following = passed.length + 1 + 1)
      ∧ ((∀ line ∈ remainder :: following, ¬ quote <:+: line) →
        blockLength quote remainder following = following.length + 1) := by
  have hone : ∀ {t : Text}, quote <:+: t → ∀ rest, blockLength quote t rest = 1 := by
    intro t h rest
    rw [blockLength, occursIn_iff.2 h, if_pos rfl]
  have hquiet : ∀ {passed : List Text}, (∀ line ∈ remainder :: passed, ¬ quote <:+: line) →
      occursIn quote remainder = false ∧ ∀ line ∈ passed, occursIn quote line = false := by
    intro passed h
    refine ⟨occursIn_eq_false_iff.2 (h remainder List.mem_cons_self), fun line hline => ?_⟩
    exact occursIn_eq_false_iff.2 (h line (List.mem_cons_of_mem _ hline))
  refine ⟨fun h => hone h following, ?_, fun h => ?_⟩
  · rintro passed closing rest rfl h hclosing
    obtain ⟨hremainder, hpassed⟩ := hquiet h
    rw [blockLength_quiet hremainder hpassed, blockLength_cons hremainder, hone hclosing]
  · obtain ⟨hremainder, hfollowing⟩ := hquiet h
    exact blockLength_of_not_closed hremainder hfollowing

/-- The docstring that a notice goes into is the docstring of the file. -/
theorem docstrings_of_merges (hl : language ∈ Language.all)
    (hmerges : Merges settings language (bodyOf (lines.drop (preambleLength lines))) quote remainder
      following) :
    ∃ head first, lines = head ++ first :: following
      ∧ docstrings language lines
        = [⟨head.length, head.length + blockLength quote remainder following⟩] := by
  obtain ⟨indent, hindent, hbody⟩ := hmerges.opens
  obtain ⟨blanks, hblanks, hparts⟩ := exists_blanks lines
  have hscan := segments_body language hparts hblanks
  have hlength : (lines.take (preambleLength lines) ++ blanks).length
      = preambleLength lines + blanks.length := by
    rw [List.length_append, List.length_take_of_le (preambleLength_le lines)]
  rw [hbody, ← hlength] at hscan
  refine ⟨lines.take (preambleLength lines) ++ blanks, indent ++ quote ++ remainder, ?_,
    docstrings_of_opening hl hmerges.offered hindent hmerges.mem hscan⟩
  rw [← hbody]
  exact hparts

/-- What is added to the docstring of a file: the lines of the notice, the first of them behind the
quote, an empty line and the remainder of the first line. -/
theorem add_merged (hn : (find language lines).notice = none)
    (hmerges : Merges settings language (bodyOf (lines.drop (preambleLength lines))) quote remainder
      following)
    (hplain : plainLines settings.name year none settings.format = Except.ok notice)
    (hclear : ∀ line ∈ notice, ¬ quote <:+: line) :
    ∃ edit opening more, add lines settings language year = Except.ok edit
      ∧ (Placement.merged quote).placed notice = (quote ++ opening) :: more
      ∧ edit.lines = preambleOf lines
        ++ (quote ++ opening) :: (more ++ [] :: (remainderLine remainder ++ following))
      ∧ ∀ line ∈ opening :: more, ¬ quote <:+: line := by
  obtain ⟨hof, hkept⟩ := of_merges hmerges
  obtain ⟨opening, more, hplaced, hquote⟩ := placed_merged hmerges.mem notice
  have hinserted : inserted settings language year (bodyOf (lines.drop (preambleLength lines)))
      = Except.ok
        ((quote ++ opening) :: (more ++ [] :: (remainderLine remainder ++ following))) := by
    rw [inserted_eq_placed, hplain, hof, hkept]
    exact congrArg (fun placed => Except.ok (placed ++ _)) hplaced
  refine ⟨_, opening, more, add_of_none hn hinserted, hplaced, rfl, ?_⟩
  intro line hline hoccurs
  obtain ⟨other, hother, hbad⟩ := hquote.1 ⟨line, hline, hoccurs⟩
  exact hclear other hother hbad

/-- The docstring of a file that a notice has been merged into: it begins with the notice, and goes
on for the lines of the notice, the empty line and what was left of the docstring. -/
theorem docstrings_merged (hl : language ∈ Language.all) (hoffered : language.docstrings = true)
    (hq : quote ∈ docstringQuotes) {opening : Text} {more : List Text}
    (hclear : ∀ line ∈ opening :: more, ¬ quote <:+: line) (lines : List Text) (remainder : Text)
    (following : List Text) :
    docstrings language (preambleOf lines
        ++ (quote ++ opening) :: (more ++ [] :: (remainderLine remainder ++ following)))
      = [⟨(preambleOf lines).length, (preambleOf lines).length + (more.length + 1
        + (remainderLine remainder).length + blockLength quote remainder following)⟩] := by
  have hscan : segments language (preambleOf lines
        ++ (quote ++ opening) :: (more ++ [] :: (remainderLine remainder ++ following)))
      = segmentsFrom language false (preambleOf lines).length
        (([] ++ quote ++ opening) :: (more ++ [] :: (remainderLine remainder ++ following))) :=
    segments_preambleOf language fun _ => (startsWith_quote hq opening).1
  rw [docstrings_of_opening hl hoffered rfl hq hscan, blockLength_merged hq hclear]

/-- **A docstring ends where it ended.**  To a file without a notice, whose body begins with a
docstring that notices go into, a notice is added whose lines do not hold the quote.  The docstring
takes as many of the lines that follow its first line as before, and these and all lines behind it
are the ones that were there.  It begins with the notice, and where it was closed on its first line,
the line that closes it now is what that line had behind the quote. -/
theorem merged_extent (hl : language ∈ Language.all) (hn : (find language lines).notice = none)
    (hmerges : Merges settings language (bodyOf (lines.drop (preambleLength lines))) quote remainder
      following)
    (hplain : plainLines settings.name year none settings.format = Except.ok notice)
    (hclear : ∀ line ∈ notice, ¬ quote <:+: line) :
    ∃ edit head first opening more front extent,
      add lines settings language year = Except.ok edit
        ∧ lines = head ++ first :: following
        ∧ docstrings language lines = [⟨head.length, head.length + 1 + extent⟩]
        ∧ (Placement.merged quote).placed notice = (quote ++ opening) :: more
        ∧ front = preambleOf lines ++ (quote ++ opening) :: more ++ [] :: remainderLine remainder
        ∧ edit.lines = front ++ following
        ∧ docstrings language edit.lines
          = [⟨(preambleOf lines).length, front.length + extent⟩]
        ∧ edit.lines.drop (front.length + extent) = lines.drop (head.length + 1 + extent)
        ∧ (quote <:+: remainder → extent = 0 ∧ front.getLast? = some remainder)
        ∧ (∀ passed closing rest, following = passed ++ closing :: rest →
          (∀ line ∈ remainder :: passed, ¬ quote <:+: line) → quote <:+: closing →
            extent = passed.length + 1)
        ∧ ((∀ line ∈ remainder :: following, ¬ quote <:+: line) → extent = following.length) := by
  obtain ⟨head, first, hlines, hbefore⟩ := docstrings_of_merges hl hmerges
  obtain ⟨edit, opening, more, hadd, hplaced, hedit, hnotice⟩ := add_merged hn hmerges hplain hclear
  obtain ⟨hfirst, hfurther, hnever⟩ := blockLength_cases quote remainder following
  obtain ⟨extent, hextent⟩ : ∃ extent, blockLength quote remainder following = extent + 1 :=
    Nat.exists_eq_add_of_le' (blockLength_pos quote remainder following)
  rw [hextent] at hbefore hfirst hfurther hnever
  have hafter := docstrings_merged hl hmerges.offered hmerges.mem hnotice lines remainder following
  rw [← hedit, hextent] at hafter
  obtain ⟨front, hfront⟩ : ∃ front, front
      = preambleOf lines ++ (quote ++ opening) :: more ++ [] :: remainderLine remainder := ⟨_, rfl⟩
  have hlength : front.length
      = (preambleOf lines).length + (more.length + 1 + (remainderLine remainder).length + 1) := by
    rw [hfront, List.length_append, List.length_append, List.length_cons, List.length_cons]
    omega
  have hout : edit.lines = front ++ following := by
    rw [hedit, hfront]
    simp only [List.append_assoc, List.cons_append]
  refine ⟨edit, head, first, opening, more, front, extent, hadd, hlines, ?_, hplaced, hfront, hout,
    ?_, ?_, ?_, ?_, ?_⟩
  · rw [hbefore, Nat.add_assoc, Nat.add_comm 1]
  · rw [hafter, hlength]
    simp only [List.cons.injEq, Span.mk.injEq, true_and, and_true]
    omega
  · rw [hout, hlines, List.drop_length_add_append, Nat.add_assoc, Nat.add_comm 1,
      List.drop_length_add_append, List.drop_succ_cons]
  · intro hoccurs
    refine ⟨Nat.add_right_cancel (hfirst hoccurs), ?_⟩
    rw [hfront, remainderLine_of_infix hmerges.mem hoccurs, List.getLast?_eq_some_iff]
    exact ⟨preambleOf lines ++ (quote ++ opening) :: more ++ [[]], by
      simp only [List.append_assoc, List.cons_append, List.nil_append]⟩
  · intro passed closing rest hfollowing hpassed hclosing
    exact Nat.add_right_cancel (hfurther passed closing rest hfollowing hpassed hclosing)
  · intro hquiet
    exact Nat.add_right_cancel (hnever hquiet)

/-- Behind a shebang, a docstring with code behind its closing quote: that line still closes it. -/
theorem merged_extent_script :
    let lines : List Text := ["#!/usr/bin/python", "", "'''Sums.", "'''; x = 1", "y = 2"]
    let settings : NoticeSettings := ⟨"Ada", NoticeFormat.standard, true⟩
    ∃ edit, add lines settings Language.python 2024 = Except.ok edit
      ∧ docstrings Language.python lines = [⟨2, 4⟩]
      ∧ docstrings Language.python edit.lines = [⟨2, 6⟩]
      ∧ edit.lines.drop 6 = ["y = 2"] := by
  intro lines settings
  have hn : (find Language.python lines).notice = none := by decide +kernel
  have hmerges : Merges settings Language.python (bodyOf (lines.drop (preambleLength lines))) "'''"
      "Sums." ["'''; x = 1", "y = 2"] := ⟨rfl, rfl, by decide, [], rfl, by decide⟩
  have hplain : plainLines settings.name 2024 none settings.format
      = Except.ok (["Copyright (c) 2024 Ada"] : List Text) := by decide +kernel
  have hadded : add lines settings Language.python 2024
      = Except.ok ⟨["#!/usr/bin/python", "", "'''Copyright (c) 2024 Ada", "", "Sums.",
        "'''; x = 1", "y = 2"], true, none, []⟩ := by decide +kernel
  obtain ⟨edit, head, first, _, _, front, extent, hadd, hlines, hbefore, -, -, hout, hafter, hdrop,
    -, hfurther, -⟩ := merged_extent (by decide) hn hmerges hplain (by decide +kernel)
  have hextent : extent = 1 :=
    hfurther [] "'''; x = 1" ["y = 2"] rfl (by decide +kernel) (by decide +kernel)
  obtain rfl := Except.ok.inj (hadded.symm.trans hadd)
  have hhead : head.length = 2 := by simpa [lines] using (congrArg List.length hlines).symm
  have hfront : front.length = 5 := by simpa using (congrArg List.length hout).symm
  have hstart : (preambleOf lines).length = 2 := by decide
  rw [hhead, hextent] at hbefore
  rw [hstart, hfront, hextent] at hafter
  rw [hfront, hhead, hextent] at hdrop
  exact ⟨_, hadd, hbefore, hafter, hdrop⟩

end Notice

end GitHooks

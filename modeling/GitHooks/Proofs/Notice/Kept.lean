/-
**What adding a notice keeps of a file.**

A file without a notice is its preamble, blank lines, and a body that begins with a line of text.
A notice is put between the preamble and the body, with one empty line on either side, and the
blank lines that stood there go.  The body follows as it is, except where it begins with a docstring
that the notice goes into.  Then its first line is divided: the notice takes the quote over, and
what the line has behind the quote stands on a line of its own, if there is anything to be read.

Main definitions:

* `Notice.Merges` — a body that begins with the docstring which a notice goes into.

Main results:

* `Notice.exists_blanks` — the preamble and the body of a file, with blank lines between;
* `Notice.of_merges`, `Notice.of_not_merges` — how a notice is put into a file;
* `Notice.add_keeps` — what is added to a file, and what is kept of it.
-/

import GitHooks.Proofs.Notice.Enclosed

set_option relaxedAutoImplicit false
set_option autoImplicit false

namespace GitHooks

namespace Notice

open Text
open Header

variable {language : Language} {lines body following : List Text} {settings : NoticeSettings}
  {year : Int} {edit : Edit} {quote remainder : Text}

/-! ### The parts of a file -/

/-- A file is its preamble and its body, with blank lines between. -/
theorem exists_blanks (lines : List Text) :
    ∃ blanks, (∀ line ∈ blanks, isBlank line = true)
      ∧ lines = lines.take (preambleLength lines) ++ blanks
        ++ bodyOf (lines.drop (preambleLength lines)) := by
  refine ⟨(lines.drop (preambleLength lines)).takeWhile isBlank, ?_, ?_⟩
  · intro line hline
    exact List.mem_takeWhile_imp hline
  · rw [bodyOf, List.append_assoc, List.takeWhile_append_dropWhile, List.take_append_drop]

/-- A body begins with a line that is not blank. -/
theorem isBlank_of_mem_head?_bodyOf {first : Text} (h : first ∈ (bodyOf lines).head?) :
    isBlank first = false := by
  rw [bodyOf, Option.mem_def] at h
  have hhead := List.head?_dropWhile_not isBlank lines
  rw [h] at hhead
  simpa using hhead

/-! ### Merging -/

/-- Notices go into docstrings, and a body begins with one: its first line is white space, a quote
and a remainder. -/
structure Merges (settings : NoticeSettings) (language : Language) (body : List Text)
    (quote remainder : Text) (following : List Text) : Prop where
  wanted : settings.docstring = true
  offered : language.docstrings = true
  mem : quote ∈ docstringQuotes
  opens : ∃ indent, isBlank indent = true ∧ body = (indent ++ quote ++ remainder) :: following

/-- Into the docstring of a body a notice is merged, and the remainder of its first line is kept
if it is not blank. -/
theorem of_merges (h : Merges settings language body quote remainder following) :
    Placement.of settings language body = Placement.merged quote
      ∧ (Placement.merged quote).kept body
        = [] :: (remainderLine remainder ++ following) := by
  obtain ⟨indent, hindent, rfl⟩ := h.opens
  have hquote : docstringQuote? (indent ++ quote ++ remainder) = some quote :=
    docstringQuote?_eq_some_iff.2 ⟨h.mem, indent, remainder, hindent, rfl⟩
  constructor
  · rw [Placement.of, h.wanted, h.offered]
    simp only [Bool.and_self, if_true, List.head?_cons, Option.bind_some, hquote]
  · rw [Placement.kept, trimStart_quoted hindent h.mem]
    simp only [List.drop_left]

/-- In front of any other body a notice stands apart. -/
theorem of_not_merges (h : ∀ quote remainder following,
    ¬ Merges settings language body quote remainder following) :
    (Placement.of settings language body).kept body = if body = [] then [] else [] :: body := by
  have hkept : ∀ placement : Placement, (∀ quote, placement ≠ Placement.merged quote) →
      placement.kept body = if body = [] then [] else [] :: body := by
    intro placement hplacement
    cases placement with
    | comment comments => cases body <;> rfl
    | fresh => cases body <;> rfl
    | merged quote => exact absurd rfl (hplacement quote)
  refine hkept _ ?_
  intro quote hquote
  rw [Placement.of] at hquote
  split at hquote
  · next hdocstring =>
    rw [Bool.and_eq_true] at hdocstring
    cases body with
    | nil => simp at hquote
    | cons first following =>
        rw [List.head?_cons, Option.bind_some] at hquote
        cases hfirst : docstringQuote? first with
        | none => simp [hfirst] at hquote
        | some other =>
            obtain ⟨hmem, indent, remainder, hindent, rfl⟩ :=
              docstringQuote?_eq_some_iff.1 hfirst
            exact h other remainder following
              ⟨hdocstring.1, hdocstring.2, hmem, indent, hindent, rfl⟩
  · exact Placement.noConfusion hquote

/-- Where there is no body, there is no docstring for a notice. -/
theorem not_merges_nil : ¬ Merges settings language [] quote remainder following := by
  intro h
  obtain ⟨indent, -, hopens⟩ := h.opens
  cases hopens

/-- Joined lines that begin with a piece have it in front of the first line. -/
theorem eq_cons_of_joinWith {piece rest : Text} (hfeed : '\n' ∉ piece) (hne : piece ≠ [])
    (h : joinWith ['\n'] lines = piece ++ rest) :
    ∃ first more, lines = (piece ++ first) :: more ∧ rest = joinWith ['\n'] (first :: more) := by
  cases lines with
  | nil =>
      rw [joinWith_nil] at h
      exact absurd (List.append_eq_nil_iff.1 h.symm).1 hne
  | cons line more =>
      have hpiece : piece <+: line := by
        have hprefix : piece <+: joinWith ['\n'] (line :: more) := ⟨rest, h.symm⟩
        cases more with
        | nil => exact hprefix
        | cons next more =>
            rw [joinWith_cons_cons, List.append_assoc, List.singleton_append] at hprefix
            exact (prefix_append_cons_iff hfeed).1 hprefix
      obtain ⟨first, rfl⟩ := hpiece
      refine ⟨first, more, rfl, ?_⟩
      cases more with
      | nil => exact (List.append_cancel_left h).symm
      | cons next more =>
          rw [joinWith_cons_cons, List.append_assoc, List.append_assoc] at h
          rw [joinWith_cons_cons, List.append_assoc]
          exact (List.append_cancel_left h).symm

/-- A merged notice takes the quote of the docstring over, and behind it the quote occurs only where
it occurs in the notice. -/
theorem placed_merged (hq : quote ∈ docstringQuotes) (notice : List Text) :
    ∃ opening more, (Placement.merged quote).placed notice = (quote ++ opening) :: more
      ∧ ((∃ line ∈ opening :: more, quote <:+: line) ↔ ∃ line ∈ notice, quote <:+: line) := by
  obtain ⟨hfeed, -, hne⟩ := quote_of_mem hq
  obtain ⟨kept, hjoin, hkept⟩ := joinWith_placed_merged hq notice
  obtain ⟨opening, more, hplaced, rfl⟩ := eq_cons_of_joinWith hfeed hne hjoin
  exact ⟨opening, more, hplaced, (infix_joinWith_iff hfeed hne _).symm.trans hkept⟩

/-! ### What is kept -/

theorem preambleOf_eq_ite (lines : List Text) :
    preambleOf lines = if lines.take (preambleLength lines) = [] then []
      else lines.take (preambleLength lines) ++ [[]] := by
  rw [preambleOf, preambleLines]
  simp only [List.isEmpty_iff]

theorem sublist_preambleOf (lines : List Text) :
    (lines.take (preambleLength lines)).Sublist (preambleOf lines) := by
  rw [preambleOf_eq_ite]
  split
  · next hnil =>
    rw [hnil]
  · exact List.sublist_append_left _ _

theorem sublist_apart (body : List Text) :
    body.Sublist (if body = [] then [] else [] :: body) := by
  split
  · next hnil =>
    rw [hnil]
  · exact List.sublist_cons_self _ _

/-- Lines that are not blank are kept where the parts around blank lines are. -/
theorem filter_sublist_append {preamble blanks back front behind : List Text}
    (hblanks : ∀ line ∈ blanks, isBlank line = true) (hfront : preamble.Sublist front)
    (hbehind : back.Sublist behind) (notice : List Text) :
    ((preamble ++ blanks ++ back).filter (!isBlank ·)).Sublist (front ++ (notice ++ behind)) := by
  have hnone : blanks.filter (!isBlank ·) = [] := by
    rw [List.filter_eq_nil_iff]
    intro line hline
    simp [hblanks line hline]
  rw [List.filter_append, List.filter_append, hnone, List.append_nil]
  refine List.Sublist.append (List.filter_sublist.trans hfront) ?_
  exact (List.filter_sublist.trans hbehind).trans (List.sublist_append_right notice behind)

/-- What is added to a file without a notice stands between its preamble and what is kept of its
body. -/
theorem exists_placed_of_add (hn : (find language lines).notice = none)
    (h : add lines settings language year = Except.ok edit) :
    ∃ plain, plainLines settings.name year none settings.format = Except.ok plain
      ∧ edit.lines = preambleOf lines
        ++ ((Placement.of settings language
            (bodyOf (lines.drop (preambleLength lines)))).placed plain
          ++ (Placement.of settings language (bodyOf (lines.drop (preambleLength lines)))).kept
            (bodyOf (lines.drop (preambleLength lines)))) := by
  obtain ⟨tail, htail, hlines⟩ := exists_of_add hn h
  rw [inserted_eq_placed] at htail
  cases hplain : plainLines settings.name year none settings.format with
  | error fault =>
      rw [hplain] at htail
      cases htail
  | ok plain =>
      rw [hplain] at htail
      obtain rfl := Except.ok.inj htail
      exact ⟨plain, rfl, hlines⟩

/-- **What adding a notice keeps of a file.**  A file is its preamble, blank lines and a body.  One
that has a notice is left as it is.  To any other the notice is added behind the preamble and an
empty line.  A docstring that the notice is merged into goes on behind an empty line with what it
has behind its quote, if that is not blank, and with the lines that follow; any other body stands
behind an empty line as it was, and where there is none the notice is the end of the file.  So no
line that is not blank is lost or moved but the one that opens a merged docstring. -/
theorem add_keeps (h : add lines settings language year = Except.ok edit) :
    let preamble := lines.take (preambleLength lines)
    let body := bodyOf (lines.drop (preambleLength lines))
    ∃ blanks, lines = preamble ++ blanks ++ body
      ∧ (∀ line ∈ blanks, isBlank line = true)
      ∧ (∀ first ∈ body.head?, isBlank first = false)
      ∧ ((find language lines).notice.isSome = true → edit.lines = lines)
      ∧ ((find language lines).notice = none → ∃ plain notice front,
        plainLines settings.name year none settings.format = Except.ok plain
          ∧ notice = (Placement.of settings language body).placed plain
          ∧ front = (if preamble = [] then [] else preamble ++ [[]]) ++ notice
          ∧ (∀ quote remainder following,
            Merges settings language body quote remainder following →
              (∃ opening more, notice = (quote ++ opening) :: more)
                ∧ edit.lines = front
                  ++ [] :: ((if isBlank remainder then [] else [remainder]) ++ following)
                ∧ ((preamble ++ blanks ++ following).filter (!isBlank ·)).Sublist edit.lines)
          ∧ ((∀ quote remainder following,
              ¬ Merges settings language body quote remainder following) →
            edit.lines = front ++ (if body = [] then [] else [] :: body)
              ∧ (lines.filter (!isBlank ·)).Sublist edit.lines)
          ∧ (body = [] → edit.lines = front)) := by
  intro preamble body
  obtain ⟨blanks, hblanks, hparts⟩ := exists_blanks lines
  refine ⟨blanks, hparts, hblanks, fun first hfirst => isBlank_of_mem_head?_bodyOf hfirst,
    fun hsome => ?_, fun hn => ?_⟩
  · rw [add_of_isSome hsome] at h
    obtain rfl := Except.ok.inj h
    rfl
  · obtain ⟨plain, hplain, hlines⟩ := exists_placed_of_add hn h
    change edit.lines = preambleOf lines ++ ((Placement.of settings language body).placed plain
      ++ (Placement.of settings language body).kept body) at hlines
    have hfront : preambleOf lines = if preamble = [] then [] else preamble ++ [[]] :=
      preambleOf_eq_ite lines
    have hapart : (∀ quote remainder following,
        ¬ Merges settings language body quote remainder following) →
          edit.lines = (if preamble = [] then [] else preamble ++ [[]])
            ++ (Placement.of settings language body).placed plain
            ++ (if body = [] then [] else [] :: body) := by
      intro hnot
      rw [hlines, of_not_merges hnot, hfront, List.append_assoc]
    refine ⟨plain, _, _, hplain, rfl, rfl, ?_, ?_, ?_⟩
    · intro quote remainder following hmerges
      obtain ⟨hof, hkept⟩ := of_merges hmerges
      obtain ⟨opening, more, hplaced, -⟩ := placed_merged hmerges.mem plain
      rw [hlines, hof, hkept]
      refine ⟨⟨opening, more, hplaced⟩, ?_, ?_⟩
      · rw [hfront, remainderLine, List.append_assoc]
      · refine filter_sublist_append hblanks (sublist_preambleOf lines) ?_ _
        exact (List.sublist_append_right _ _).trans (List.sublist_cons_self _ _)
    · intro hnot
      refine ⟨hapart hnot, ?_⟩
      rw [hlines, of_not_merges hnot]
      have hall := filter_sublist_append hblanks (sublist_preambleOf lines) (sublist_apart body)
        ((Placement.of settings language body).placed plain)
      rwa [← hparts] at hall
    · intro hnil
      have hnot : ∀ quote remainder following,
          ¬ Merges settings language body quote remainder following := by
        rw [hnil]
        exact fun _ _ _ => not_merges_nil
      rw [hapart hnot, if_pos hnil, List.append_nil]

/-- In a script the notice goes into the docstring behind the shebang, whose first line is
divided. -/
theorem add_keeps_docstring :
    let lines : List Text := ["#!/usr/bin/python", "", "'''Sums.", "", "'''", "x = 1"]
    let settings : NoticeSettings := ⟨"Ada", NoticeFormat.standard, true⟩
    add lines settings Language.python 2024
        = Except.ok ⟨["#!/usr/bin/python", "", "'''Copyright (c) 2024 Ada", "", "Sums.", "", "'''",
          "x = 1"], true, none, []⟩
      ∧ ∃ front : List Text,
        (["#!/usr/bin/python", "", "'''Copyright (c) 2024 Ada", "", "Sums.", "", "'''",
            "x = 1"] : List Text)
          = front ++ (["", "Sums.", "", "'''", "x = 1"] : List Text) := by
  intro lines settings
  have hn : (find Language.python lines).notice = none := by decide +kernel
  have hadd : add lines settings Language.python 2024
      = Except.ok ⟨["#!/usr/bin/python", "", "'''Copyright (c) 2024 Ada", "", "Sums.", "", "'''",
        "x = 1"], true, none, []⟩ := by decide +kernel
  have hmerges : Merges settings Language.python (bodyOf (lines.drop (preambleLength lines))) "'''"
      "Sums." ["", "'''", "x = 1"] := ⟨rfl, rfl, by decide, [], rfl, by decide⟩
  obtain ⟨_, -, -, -, -, hadded⟩ := add_keeps hadd
  obtain ⟨_, _, front, -, -, -, hmerged, -, -⟩ := hadded hn
  exact ⟨hadd, front, (hmerged _ _ _ hmerges).2.1⟩

end Notice

end GitHooks

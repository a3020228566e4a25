/-
**Messages laid out by the standard template.**

The standard template puts the subject, the ID in brackets and the body on lines of their own.  So
an amended message says what the message said, with one line added: behind the subject, or behind
everything if the subject is a comment.  Trimming takes away blank lines only, and so does putting
the body on a line of its own.

Main definitions:

* `Template.standard` — the template used when none is given.

Main results:

* `CommitMessage.contents_lines_layOut` — what a message says when it has been laid out;
* `CommitMessage.contents_take_lines`, `CommitMessage.contents_drop_lines` — the first line of a
  message is its subject, and the others are its body.
-/

import GitHooks.Proofs.Message.Visible

set_option relaxedAutoImplicit false
set_option autoImplicit false

namespace GitHooks

open Text

namespace Template

/-- The template used when none is given. -/
def standard : Template :=
  ⟨[.slot .subject, .char '\n', .char '\n', .char '[', .slot .issueId, .char ']', .char '\n',
    .slot .body], by decide⟩

theorem parse_standardText : parse standardText = .ok standard := by decide

/-- The standard template shows the ID. -/
theorem showsIssue_standard : standard.ShowsIssue :=
  ⟨[.slot .subject, .char '\n', .char '\n'], [.char '['], [.char ']', .char '\n', .slot .body], rfl,
    .inr rfl, by decide, by decide, by decide⟩

end Template

namespace CommitMessage

variable {id subject : Text}

/-! ### Subject and body in the lines of a message -/

theorem trim_headD_lines (message : Text) :
    trim ((lines message).headD []) = (split message).1 := by
  induction message using line_induction with
  | line u hu =>
      rw [split_of_not_mem hu]
      cases u with
      | nil => rfl
      | cons c u => rw [lines_of_not_mem hu (by simp), List.headD_cons]
  | feed u body hu _ =>
      rw [split_append_feed hu, lines_append_feed hu, List.headD_cons, trim_dropReturn]

/-- The first line of a message is its subject. -/
theorem contents_take_lines (message : Text) :
    contents ((lines message).take 1) = contents [(split message).1] := by
  induction message using line_induction with
  | line u hu =>
      rw [split_of_not_mem hu]
      cases u with
      | nil => rfl
      | cons c u =>
          rw [lines_of_not_mem hu (by simp)]
          exact contents_congr (trim_trim _).symm
  | feed u body hu _ =>
      rw [split_append_feed hu, lines_append_feed hu]
      refine contents_congr ?_
      rw [trim_dropReturn, trim_trim]

/-- The other lines of a message are its body. -/
theorem contents_drop_lines (message : Text) :
    contents ((lines message).drop 1) = contents (lines (split message).2) := by
  induction message using line_induction with
  | line u hu =>
      rw [split_of_not_mem hu]
      cases u with
      | nil => rfl
      | cons c u =>
          rw [lines_of_not_mem hu (by simp)]
          rfl
  | feed u body hu _ =>
      rw [split_append_feed hu, lines_append_feed hu]
      rfl

theorem contents_lines_message (message : Text) : contents (lines message)
    = contents [(split message).1] ++ contents (lines (split message).2) := by
  rw [← contents_take_lines, ← contents_drop_lines, ← contents_append, List.take_append_drop]

/-! ### What a laid out message says -/

theorem contents_lines_join (subject body : Text) :
    contents (lines (join subject body)) = contents (lines subject) ++ contents (lines body) := by
  simp only [contents_eq_flatMap (lines _)]
  exact flatMap_lines_join ignoresEnd_contents subject body

/-- A body says the same when it is trimmed and put on a line of its own. -/
theorem contents_lines_bodyText (body : Text) :
    contents (lines (bodyText body)) = contents (lines body) := by
  rw [bodyText]
  cases IssueId.isComment (trim body) with
  | false => exact contents_lines_trim body
  | true =>
      rw [if_pos rfl, contents_lines_cons (by decide), contents_lines_trim]

/-- An ID in brackets is a line that says itself. -/
theorem contents_lines_bracketed (hid : IssueId.IsSolid id) :
    contents (lines (bracketed id)) = [bracketed id] := by
  have hmem : '\n' ∉ bracketed id := by
    simp [bracketed, hid.not_mem_feed]
  have htrim : trim (bracketed id) = bracketed id := by
    rw [bracketed, trim, trimStart_cons (by decide), ← List.cons_append, trimEnd_concat (by decide)]
  rw [contents_lines_of_not_mem hmem, contents_singleton, htrim]
  rfl

theorem fill_standard (id subject body : Text) : Template.standard.fill (values id subject body)
    = subject ++ '\n' :: ([] ++ '\n' :: (bracketed id ++ '\n' :: bodyText body)) := by
  simp [Template.standard, Template.fill, Template.Piece.fill, values, bracketed]

/-- **What a message says when it has been laid out** by the standard template: the ID in brackets
is added behind a subject that is no comment, or else behind the body. -/
theorem contents_lines_layOut (hid : IssueId.IsSolid id) (hsubject : '\n' ∉ subject)
    (body : Text) : contents (lines (layOut id subject body Template.standard))
      = if IssueId.isComment subject then
          contents [subject] ++ contents (lines body) ++ [bracketed id]
        else contents [subject] ++ [bracketed id] ++ contents (lines body) := by
  cases hcomment : IssueId.isComment subject with
  | true =>
      rw [layOut_of_comment hcomment, contents_lines_trim, contents_lines_append_feed,
        contents_lines_join, contents_lines_bracketed hid, contents_lines_of_not_mem hsubject,
        if_pos rfl]
  | false =>
      rw [layOut_of_subject hcomment, contents_lines_trim, fill_standard,
        contents_lines_append_feed, contents_lines_append_feed, contents_lines_append_feed,
        contents_lines_bracketed hid, contents_lines_bodyText, contents_lines_of_not_mem hsubject,
        lines_nil, contents_nil, List.nil_append, if_neg Bool.false_ne_true, List.append_assoc]

end CommitMessage

end GitHooks

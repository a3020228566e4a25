/-
**Messages laid out around an ID.**

A message is cut at its first line feed.  With a subject that is no comment it is the template,
filled and trimmed; with one that is, the ID stands on a line of its own behind the message.  Here
these are put as equations, and with them what a message needs to be left alone.

Main definitions:

* `CommitMessage.values` — what the slots of a template are filled with.

Main results:

* `CommitMessage.split_of_not_mem`, `CommitMessage.split_append_feed` — subject and body;
* `CommitMessage.layOut_of_comment`, `CommitMessage.layOut_of_subject` — the two layouts;
* `CommitMessage.withIssue?_eq_some_iff`, `CommitMessage.withIssue?_eq_none_iff` — what becomes of
  a message.
-/

import GitHooks.Message.WithIssue
import GitHooks.Proofs.Message.Mention

set_option relaxedAutoImplicit false
set_option autoImplicit false

namespace GitHooks

namespace CommitMessage

open Text

variable {branch id subject message amended u : Text} {template : Template}

/-! ### Subject and body -/

theorem forall_ne_feed (h : '\n' ∉ u) : ∀ c ∈ u, (c == '\n') = false := by
  intro c hc
  simpa using fun heq : c = '\n' => h (heq ▸ hc)

theorem split_of_not_mem (h : '\n' ∉ u) : split u = (trim u, []) := by
  rw [split, cutAt?_singleton, cutWhere?_of_forall (forall_ne_feed h)]

theorem split_append_feed (h : '\n' ∉ u) (body : Text) :
    split (u ++ '\n' :: body) = (trim u, body) := by
  rw [split, cutAt?_singleton, cutWhere?_append_cons (forall_ne_feed h) (by simp)]

/-- The subject is a trimmed line. -/
theorem exists_subject (message : Text) : ∃ u, '\n' ∉ u ∧ (split message).1 = trim u := by
  induction message using line_induction with
  | line u hu => exact ⟨u, hu, by rw [split_of_not_mem hu]⟩
  | feed u body hu _ => exact ⟨u, hu, by rw [split_append_feed hu]⟩

theorem not_mem_subject (message : Text) : '\n' ∉ (split message).1 := by
  obtain ⟨u, hu, hsubject⟩ := exists_subject message
  rw [hsubject]
  exact fun hmem => hu (mem_of_mem_trim hmem)

theorem trim_subject (message : Text) : trim (split message).1 = (split message).1 := by
  obtain ⟨u, -, hsubject⟩ := exists_subject message
  rw [hsubject, trim_trim]

/-- Subject and body are read one after the other when they are joined. -/
theorem flatMap_lines_join {α : Type} {read : Text → List α} (h : IgnoresEnd read)
    (subject body : Text) : (lines (join subject body)).flatMap read
      = (lines subject).flatMap read ++ (lines body).flatMap read := by
  cases body with
  | nil => rw [join, List.isEmpty_nil, if_pos rfl, lines_nil, List.flatMap_nil, List.append_nil]
  | cons c body =>
      have hjoin : join subject (c :: body) = subject ++ '\n' :: c :: body := by
        simp [join]
      rw [hjoin, h.flatMap_lines_append_feed]

/-! ### The two layouts -/

/-- What the slots of a template are filled with. -/
def values (id subject body : Text) : Template.Slot → Text
  | .subject => subject
  | .issueId => id
  | .body => bodyText body

/-- An ID in brackets, as it stands on a line of its own. -/
def bracketed (id : Text) : Text := '[' :: (id ++ [']'])

/-- Behind a message whose subject is a comment, the ID stands on a line of its own. -/
theorem layOut_of_comment (h : IssueId.isComment subject = true) (id body : Text)
    (template : Template) :
    layOut id subject body template = trim (join subject body ++ '\n' :: bracketed id) := by
  have hline : join subject body ++ "\n[" ++ id ++ "]"
      = join subject body ++ '\n' :: bracketed id := by
    simp [bracketed]
  rw [layOut, if_pos h, hline]

/-- Any other message is the template, filled. -/
theorem layOut_of_subject (h : IssueId.isComment subject = false) (id body : Text)
    (template : Template) :
    layOut id subject body template = trim (template.fill (values id subject body)) := by
  rw [layOut, h, if_neg Bool.false_ne_true]
  rfl

/-! ### What becomes of a message -/

theorem withIssue?_eq_none_iff (hid : IssueId.find? branch = some id) :
    withIssue? branch message template = none ↔ IssueId.mentionedIn id message = true := by
  rw [withIssue?, hid, Option.bind_some]
  cases IssueId.mentionedIn id message <;> simp

theorem withIssue?_eq_some_iff (hid : IssueId.find? branch = some id) :
    withIssue? branch message template = some amended ↔ IssueId.mentionedIn id message = false
      ∧ layOut id (split message).1 (split message).2 template = amended := by
  rw [withIssue?, hid, Option.bind_some]
  cases IssueId.mentionedIn id message <;> simp

/-- A message that was amended and ended with a line feed is left alone exactly when it mentions
the ID. -/
theorem withIssue?_ended_eq_none_iff (hid : IssueId.find? branch = some id) :
    withIssue? branch (amended ++ "\n") template = none
      ↔ IssueId.mentionedIn id amended = true := by
  have hne := (IssueId.isSolid_of_find? hid).ne_nil
  have hended :
      IssueId.mentionedIn id (amended ++ '\n' :: []) = IssueId.mentionedIn id amended := by
    rw [IssueId.mentionedIn_append_feed hne, IssueId.mentionedIn_eq hne [], lines_nil, contents_nil,
      List.any_nil, Bool.or_false]
  rw [withIssue?_eq_none_iff hid, ← hended]
  rfl

end CommitMessage

end GitHooks

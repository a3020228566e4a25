/-
**Comments of an amended message.**

A line that begins with a hash sign is a comment as long as it stays at the beginning of a line.
Trimming a text leaves it there, because only white space is taken away before it, and so does
putting something behind the text.  What stands before the body in a template could push its first
line away from the beginning of the line, but no other; and a body that begins with a comment is put
on a line of its own.  So all comments of a body are still comments in an amended message, in the
same order, with white space taken away or text of the template added behind them.

Main definitions:

* `CommitMessage.comments` — the lines of a text that are comments;
* `CommitMessage.KeepsComments` — a text has the comments of another among its own.

Main results:

* `CommitMessage.keepsComments_trim`, `CommitMessage.keepsComments_append` — what keeps comments;
* `CommitMessage.keepsComments_layOut` — a message that is laid out keeps those of its body;
* `CommitMessage.comments_build` — the comments of a body are comments of the message.
-/

import GitHooks.Proofs.Message.Slots
import GitHooks.Proofs.Message.Visible
import Mathlib.Data.List.Forall2
import Mathlib.Data.List.Infix

set_option relaxedAutoImplicit false
set_option autoImplicit false

namespace GitHooks

namespace CommitMessage

open Text

variable {t u v front body : Text}

/-! ### Comments -/

/-- The lines of a text that are comments. -/
def comments (t : Text) : List Text := (lines t).filter IssueId.isComment

/-- What a line has to say as a comment: all of it but white space at its end. -/
def remark (line : Text) : List Text := if IssueId.isComment line then [trimEnd line] else []

theorem remark_of_not_isComment (h : IssueId.isComment t = false) : remark t = [] := by
  rw [remark, h, if_neg Bool.false_ne_true]

theorem map_trimEnd_comments (t : Text) :
    (comments t).map trimEnd = (lines t).flatMap remark := by
  rw [comments]
  induction lines t with
  | nil => rfl
  | cons line rest ih =>
      cases hline : IssueId.isComment line with
      | false =>
          rw [List.filter_cons_of_neg (by simp [hline]), ih, List.flatMap_cons,
            remark_of_not_isComment hline, List.nil_append]
      | true =>
          rw [List.filter_cons_of_pos hline, List.map_cons, ih, List.flatMap_cons, remark,
            if_pos hline]
          rfl

/-- A space is the beginning of no comment. -/
theorem isComment_cons_of_isSpace {c : Char} (hc : isSpace c = true) (u : Text) :
    IssueId.isComment (c :: u) = false := by
  rw [← Bool.not_eq_true, IssueId.isComment_iff]
  intro h
  obtain rfl : c = '#' := Option.some.inj h
  exact absurd hc (by decide)

theorem isComment_append (h : IssueId.isComment u = true) (t : Text) :
    IssueId.isComment (u ++ t) = true := by
  rw [IssueId.isComment_iff] at h ⊢
  rw [List.head?_append, h]
  rfl

theorem ignoresEnd_remark : IgnoresEnd remark := by
  refine ⟨rfl, fun u c hc => ?_⟩
  cases u with
  | nil => exact remark_of_not_isComment (isComment_cons_of_isSpace hc [])
  | cons d u =>
      have hblank : isBlank [c] = true := by simp [isBlank, hc]
      have hcomment : IssueId.isComment (d :: u ++ [c]) = IssueId.isComment (d :: u) := by
        rw [Bool.eq_iff_iff, IssueId.isComment_iff, IssueId.isComment_iff]
        rfl
      rw [remark, hcomment, trimEnd_append_of_isBlank hblank, remark]

/-! ### Keeping comments -/

/-- Each comment of a text begins a comment of another one, in the same order. -/
def KeepsComments (t u : Text) : Prop :=
  List.SublistForall₂ (· <+: ·) ((lines t).flatMap remark) ((lines u).flatMap remark)

theorem KeepsComments.trans (h : KeepsComments t u) (h' : KeepsComments u v) : KeepsComments t v :=
  List.SublistForall₂.is_trans.trans _ _ _ h h'

theorem keepsComments_of_sublist
    (h : ((lines t).flatMap remark).Sublist ((lines u).flatMap remark)) : KeepsComments t u :=
  h.sublistForall₂

/-- A text without comments has none to keep. -/
theorem keepsComments_of_eq_nil (h : (lines t).flatMap remark = []) (u : Text) :
    KeepsComments t u :=
  keepsComments_of_sublist (h ▸ List.nil_sublist _)

/-- What stands on other lines does not matter. -/
theorem keepsComments_append_feed_left (u t : Text) : KeepsComments t (u ++ '\n' :: t) := by
  refine keepsComments_of_sublist ?_
  rw [ignoresEnd_remark.flatMap_lines_append_feed]
  exact List.sublist_append_right _ _

theorem keepsComments_append_feed_right (u t : Text) : KeepsComments u (u ++ '\n' :: t) := by
  refine keepsComments_of_sublist ?_
  rw [ignoresEnd_remark.flatMap_lines_append_feed]
  exact List.sublist_append_left _ _

theorem KeepsComments.append_feed (h : KeepsComments t v) (u : Text) :
    KeepsComments (u ++ '\n' :: t) (u ++ '\n' :: v) := by
  rw [KeepsComments, ignoresEnd_remark.flatMap_lines_append_feed,
    ignoresEnd_remark.flatMap_lines_append_feed]
  obtain ⟨kept, hkept, hsub⟩ := List.sublistForall₂_iff.1 h
  exact List.sublistForall₂_iff.2 ⟨_, List.rel_append (List.forall₂_refl _) hkept,
    hsub.append_left _⟩

/-! ### What keeps comments -/

/-- White space in front of a text makes no comment. -/
theorem keepsComments_cons {c : Char} (hc : isSpace c = true) (t : Text) :
    KeepsComments (c :: t) t := by
  by_cases hfeed : c = '\n'
  · subst hfeed
    refine keepsComments_of_sublist ?_
    rw [← List.nil_append ('\n' :: t), ignoresEnd_remark.flatMap_lines_append_feed]
    exact List.Sublist.refl _
  · have hline : ∀ u, '\n' ∉ u → (lines (c :: u)).flatMap remark = [] := by
      intro u hu
      have hmem : '\n' ∉ c :: u := by simp [hu, Ne.symm hfeed]
      rw [ignoresEnd_remark.flatMap_lines_of_not_mem hmem,
        remark_of_not_isComment (isComment_cons_of_isSpace hc u)]
    induction t using line_induction with
    | line t ht => exact keepsComments_of_eq_nil (hline t ht) t
    | feed u t hu _ =>
        refine keepsComments_of_sublist ?_
        rw [← List.cons_append, ignoresEnd_remark.flatMap_lines_append_feed, hline u hu,
          ignoresEnd_remark.flatMap_lines_append_feed]
        exact List.sublist_append_right _ _

theorem keepsComments_append_left {blank : Text} (h : isBlank blank = true) (t : Text) :
    KeepsComments (blank ++ t) t := by
  induction blank with
  | nil => exact keepsComments_of_sublist (List.Sublist.refl _)
  | cons c blank ih =>
      obtain ⟨hc, hblank⟩ : isSpace c = true ∧ isBlank blank = true := by simpa [isBlank] using h
      exact (keepsComments_cons hc (blank ++ t)).trans (ih hblank)

/-- **Trimming a text keeps its comments.** -/
theorem keepsComments_trim (t : Text) : KeepsComments t (trim t) := by
  obtain ⟨front, back, -, hfront, hback, ht⟩ := exists_trim_append t
  have hend : (lines t).flatMap remark = (lines (front ++ trim t)).flatMap remark := by
    conv => lhs; rw [ht]
    exact ignoresEnd_remark.flatMap_lines_append_right hback _
  rw [KeepsComments, hend]
  exact keepsComments_append_left hfront (trim t)

/-- **Putting something behind a text keeps its comments**, also on the last line. -/
theorem keepsComments_append (t v : Text) : KeepsComments t (t ++ v) := by
  induction t using line_induction with
  | feed u t _ ih =>
      rw [List.append_assoc, List.cons_append]
      exact ih.append_feed u
  | line t ht =>
      have hline : ∀ w, '\n' ∉ w → KeepsComments t (t ++ w) := by
        intro w hw
        have hmem : '\n' ∉ t ++ w := by simp [ht, hw]
        rw [KeepsComments, ignoresEnd_remark.flatMap_lines_of_not_mem ht,
          ignoresEnd_remark.flatMap_lines_of_not_mem hmem]
        cases hcomment : IssueId.isComment t with
        | false =>
            rw [remark_of_not_isComment hcomment]
            exact .nil
        | true =>
            rw [remark, if_pos hcomment, remark, if_pos (isComment_append hcomment w)]
            exact .cons (trimEnd_prefix_trimEnd_append t w) .nil
      cases v using line_induction with
      | line v hv => exact hline v hv
      | feed w v hw _ =>
          rw [← List.append_assoc]
          exact (hline w hw).trans (keepsComments_append_feed_right (t ++ w) v)

/-- **A text that begins with no comment may stand anywhere**: only its first line can be pushed
away from the beginning of a line. -/
theorem keepsComments_between (h : IssueId.isComment t = false) (front v : Text) :
    KeepsComments t (front ++ (t ++ v)) := by
  cases t using line_induction with
  | line t ht =>
      refine keepsComments_of_eq_nil ?_ _
      rw [ignoresEnd_remark.flatMap_lines_of_not_mem ht, remark_of_not_isComment h]
  | feed u t hu _ =>
      have hfirst : IssueId.isComment u = false := by
        rw [← Bool.not_eq_true] at h ⊢
        exact fun hcomment => h (isComment_append hcomment _)
      have hrest : KeepsComments (u ++ '\n' :: t) t := by
        refine keepsComments_of_sublist ?_
        rw [ignoresEnd_remark.flatMap_lines_append_feed,
          ignoresEnd_remark.flatMap_lines_of_not_mem hu, remark_of_not_isComment hfirst]
        exact List.Sublist.refl _
      have hparts : front ++ (u ++ '\n' :: t ++ v) = front ++ u ++ '\n' :: (t ++ v) := by
        simp only [List.append_assoc, List.cons_append]
      rw [hparts]
      exact (hrest.trans (keepsComments_append t v)).trans (keepsComments_append_feed_left _ _)

/-! ### Amended messages -/

/-- A body is put where its comments are kept. -/
theorem keepsComments_bodyText (body : Text) : KeepsComments body (bodyText body)
    ∧ IssueId.isComment (bodyText body) = false := by
  have htrim := keepsComments_trim body
  rw [bodyText]
  cases hcomment : IssueId.isComment (trim body) with
  | false => exact ⟨htrim, hcomment⟩
  | true =>
      rw [if_pos rfl]
      exact ⟨htrim.trans (keepsComments_append_feed_left [] (trim body)),
        isComment_cons_of_isSpace (by decide) _⟩

theorem keepsComments_join (subject body : Text) : KeepsComments body (join subject body) := by
  refine keepsComments_of_sublist ?_
  rw [flatMap_lines_join ignoresEnd_remark]
  exact List.sublist_append_right _ _

/-- **A message that is laid out keeps the comments of its body.** -/
theorem keepsComments_layOut (id subject body : Text) (template : Template) :
    KeepsComments body (layOut id subject body template) := by
  cases hsubject : IssueId.isComment subject with
  | true =>
      rw [layOut_of_comment hsubject]
      exact ((keepsComments_join subject body).trans (keepsComments_append_feed_right _ _)).trans
        (keepsComments_trim _)
  | false =>
      obtain ⟨hbody, hfirst⟩ := keepsComments_bodyText body
      obtain ⟨before, after, hpieces⟩ := List.append_of_mem (template.slot_mem_pieces .body)
      rw [layOut_of_subject hsubject, Template.fill, hpieces, Template.flatMap_fill_append_slot]
      exact (hbody.trans (keepsComments_between hfirst _ _)).trans (keepsComments_trim _)

/-- **The comments of a body are comments of the message**, with every branch and every template:
each, without white space at its end, begins a comment of the message, in the same order. -/
theorem comments_build (branch subject body : Text) (template : Template) :
    List.SublistForall₂ (· <+: ·) ((comments body).map trimEnd)
      (comments (build branch subject body template)) := by
  have hkeeps : KeepsComments body (build branch subject body template) := by
    rw [build]
    cases IssueId.find? branch with
    | none => exact keepsComments_join subject body
    | some id => exact keepsComments_layOut id subject body template
  rw [KeepsComments, ← map_trimEnd_comments, ← map_trimEnd_comments] at hkeeps
  have hends : List.SublistForall₂ (· <+: ·)
      ((comments (build branch subject body template)).map trimEnd)
      (comments (build branch subject body template)) := by
    refine List.sublistForall₂_iff.2 ⟨_, ?_, List.Sublist.refl _⟩
    rw [List.forall₂_map_left_iff, List.forall₂_same]
    exact fun line _ => trimEnd_prefix line
  exact List.SublistForall₂.is_trans.trans _ _ _ hkeeps hends

/-- A template with text right before the body and behind it, and the body twice. -/
def bodyTwice : Template :=
  ⟨[.slot .subject, .slot .issueId, .slot .body, .char '!', .slot .body], by decide⟩

/-- A template may have text right before the body and behind it, and the body twice. -/
theorem comments_build_twice :
    Template.parse (Template.inBraces "subject" ++ Template.inBraces "issue_id"
        ++ Template.inBraces "body" ++ "!" ++ Template.inBraces "body")
      = .ok bodyTwice
      ∧ build "abc-1" "fix" "# a \nb\n# c" bodyTwice
        = "fixABC-1\n# a \nb\n# c!\n# a \nb\n# c"
      ∧ List.SublistForall₂ (· <+: ·) ["# a".toList, "# c".toList]
          (comments "fixABC-1\n# a \nb\n# c!\n# a \nb\n# c") := by
  have hparse : Template.parse (Template.inBraces "subject" ++ Template.inBraces "issue_id"
        ++ Template.inBraces "body" ++ "!" ++ Template.inBraces "body")
      = .ok bodyTwice := by decide
  have hbuild : build "abc-1" "fix" "# a \nb\n# c" bodyTwice
      = "fixABC-1\n# a \nb\n# c!\n# a \nb\n# c" := by decide
  have hcomments : (comments "# a \nb\n# c").map trimEnd = ["# a".toList, "# c".toList] := by decide
  have hkept := comments_build "abc-1" "fix" "# a \nb\n# c" bodyTwice
  rw [hbuild, hcomments] at hkept
  exact ⟨hparse, hbuild, hkept⟩

end CommitMessage

end GitHooks

/-
**Where a template puts the ID.**

A template may put the ID anywhere, also on a line that begins with a hash sign; there it is part
of a comment and does not count as a mention.  What counts is the text that stands before the ID on
its line when the template is filled.  If that is a comment for every ID in the template, leaving
the IDs out changes no line that counts, so that the message mentions what it would mention without
them.

What stands before the ID comes from the template, from the subject and from the body.  A subject
is one line and no comment, but the last line of a body may be one.  So an ID is safe for every
message when the body does not stand before it on its line, and what the template itself has there
does not begin with a hash sign.

Main definitions:

* `Template.PutsIssue` — a filled template has an ID on a line that is no comment;
* `Template.ShowsIssue` — so it has for every message.

Main results:

* `Template.mentionedIn_fill_iff` — when a filled template mentions its ID;
* `Template.ShowsIssue.putsIssue` — a template that shows the ID puts it on such a line;
* `CommitMessage.mentionedIn_layOut_of_showsIssue` — then every amended message mentions the ID;
* `CommitMessage.mentionedIn_amended` — when an amended message mentions the ID of its branch.
-/

import GitHooks.Proofs.Message.Layout

set_option relaxedAutoImplicit false
set_option autoImplicit false

namespace GitHooks

open Text

namespace Template

variable {id : Text} {values other : Slot → Text} {template : Template} {pieces line : List Piece}

/-! ### Filling -/

theorem flatMap_fill_append_slot (values : Slot → Text) (before after : List Piece) (place : Slot) :
    (before ++ Piece.slot place :: after).flatMap (Piece.fill values)
      = before.flatMap (Piece.fill values)
        ++ (values place ++ after.flatMap (Piece.fill values)) := by
  rw [List.flatMap_append, List.flatMap_cons]
  rfl

/-- A filled template has an ID on a line that is no comment. -/
def PutsIssue (template : Template) (values : Slot → Text) : Prop :=
  ∃ before after, template.pieces = before ++ Piece.slot .issueId :: after
    ∧ IssueId.isComment (trim (lastLine (before.flatMap (Piece.fill values)))) = false

/-- An ID on a line that is no comment is mentioned. -/
theorem PutsIssue.mentionedIn_fill (hid : IssueId.IsSolid id) (hissue : values .issueId = id)
    (h : template.PutsIssue values) : IssueId.mentionedIn id (template.fill values) = true := by
  obtain ⟨before, after, hpieces, hline⟩ := h
  rw [fill, hpieces, flatMap_fill_append_slot, hissue]
  exact IssueId.mentionedIn_append_solid hid hline _

/-- Where all IDs stand on comment lines, they can be left out.  The texts before the pieces, with
and without IDs, are alike in that they make the same mention whatever follows. -/
theorem mentionedIn_flatMap (hid : IssueId.IsSolid id) (hissue : values .issueId = id)
    (hempty : other .issueId = []) (hother : ∀ place, place ≠ .issueId → other place = values place)
    (front front' : Text)
    (halike : ∀ t, IssueId.mentionedIn id (front ++ t) = IssueId.mentionedIn id (front' ++ t))
    (hcomment : ∀ before after, pieces = before ++ Piece.slot .issueId :: after →
      IssueId.isComment (trim (lastLine (front ++ before.flatMap (Piece.fill values)))) = true) :
    IssueId.mentionedIn id (front ++ pieces.flatMap (Piece.fill values))
      = IssueId.mentionedIn id (front' ++ pieces.flatMap (Piece.fill other)) := by
  induction pieces generalizing front front' with
  | nil => exact halike []
  | cons piece rest ih =>
      rw [List.flatMap_cons, List.flatMap_cons, ← List.append_assoc, ← List.append_assoc]
      refine ih _ _ ?_ ?_
      · intro t
        rw [List.append_assoc, List.append_assoc]
        by_cases hpiece : piece = Piece.slot .issueId
        · subst hpiece
          have hfront := hcomment [] rest rfl
          rw [List.flatMap_nil, List.append_nil] at hfront
          rw [Piece.fill, Piece.fill, hissue, hempty, List.nil_append, ← halike]
          exact IssueId.mentionedIn_append_of_comment hid.ne_nil hfront hid.not_mem_feed t
        · have hfill : Piece.fill other piece = Piece.fill values piece := by
            cases piece with
            | char c => rfl
            | slot place => exact hother place fun heq => hpiece (heq ▸ rfl)
          rw [hfill, halike]
      · intro before after hrest
        have hpieces : piece :: rest = (piece :: before) ++ Piece.slot .issueId :: after := by
          rw [hrest, List.cons_append]
        have hfront := hcomment (piece :: before) after hpieces
        rwa [List.flatMap_cons, ← List.append_assoc] at hfront

/-- **When a filled template mentions its ID**: exactly when it has the ID on a line that is no
comment, or mentions it without having it filled in. -/
theorem mentionedIn_fill_iff (hid : IssueId.IsSolid id) (hissue : values .issueId = id)
    (hempty : other .issueId = [])
    (hother : ∀ place, place ≠ .issueId → other place = values place) :
    IssueId.mentionedIn id (template.fill values) = true
      ↔ template.PutsIssue values ∨ IssueId.mentionedIn id (template.fill other) = true := by
  by_cases hputs : template.PutsIssue values
  · exact iff_of_true (hputs.mentionedIn_fill hid hissue) (.inl hputs)
  · have hcomment : ∀ before after, template.pieces = before ++ Piece.slot .issueId :: after →
        IssueId.isComment (trim (lastLine ([] ++ before.flatMap (Piece.fill values)))) = true := by
      intro before after hpieces
      rw [List.nil_append, ← Bool.not_eq_false]
      exact fun hline => hputs ⟨before, after, hpieces, hline⟩
    have hsame := mentionedIn_flatMap hid hissue hempty hother [] [] (fun _ => rfl) hcomment
    rw [List.nil_append, List.nil_append] at hsame
    rw [fill, hsame, ← fill]
    exact (or_iff_right hputs).symm

/-! ### Templates that show the ID -/

/-- On a line of the template there is an ID before every body, and what the template itself has
before it on the line does not begin with a hash sign. -/
def ShowsIssue (template : Template) : Prop :=
  ∃ before line after, template.pieces = before ++ line ++ Piece.slot .issueId :: after
    ∧ (before = [] ∨ before.getLast? = some (Piece.char '\n'))
    ∧ Piece.char '\n' ∉ line ∧ Piece.slot .body ∉ line
    ∧ IssueId.isComment (trim (line.flatMap (Piece.fill fun _ => []))) = false

/-- A line without a body stays one line. -/
theorem not_mem_flatMap_fill (hissue : '\n' ∉ values .issueId) (hsubject : '\n' ∉ values .subject)
    (hfeed : Piece.char '\n' ∉ line) (hbody : Piece.slot .body ∉ line) :
    '\n' ∉ line.flatMap (Piece.fill values) := by
  intro hmem
  obtain ⟨piece, hpiece, hc⟩ := List.mem_flatMap.1 hmem
  cases piece with
  | char c =>
      obtain rfl : '\n' = c := by simpa [Piece.fill] using hc
      exact hfeed hpiece
  | slot place =>
      cases place with
      | subject => exact hsubject hc
      | issueId => exact hissue hc
      | body => exact hbody hpiece

/-- Subject and ID make no comment of a line that the template has not begun with a hash sign. -/
theorem isComment_flatMap_fill (hid : IssueId.IsSolid (values .issueId))
    (hsubject : IssueId.isComment (trim (values .subject)) = false)
    (hbody : Piece.slot .body ∉ line)
    (hown : IssueId.isComment (trim (line.flatMap (Piece.fill fun _ => []))) = false) :
    IssueId.isComment (trim (line.flatMap (Piece.fill values))) = false := by
  induction line with
  | nil => rfl
  | cons piece rest ih =>
      rw [List.mem_cons, not_or] at hbody
      rw [List.flatMap_cons] at hown ⊢
      cases piece with
      | char c =>
          cases hc : isSpace c with
          | true =>
              have hblank : isBlank [c] = true := by simp [isBlank, hc]
              rw [Piece.fill, trim_append_left hblank] at hown ⊢
              exact ih hbody.2 hown
          | false =>
              -- the line begins with the character, whatever follows
              rw [Piece.fill, List.singleton_append, ← Bool.not_eq_true, IssueId.isComment_trim,
                IssueId.isComment_iff, trimStart_cons hc] at hown ⊢
              exact hown
      | slot place =>
          rw [Piece.fill, List.nil_append] at hown
          cases place with
          | subject =>
              exact IssueId.isComment_trim_append_eq_false hsubject (ih hbody.2 hown)
          | issueId => exact hid.isComment_append _
          | body => exact absurd rfl hbody.1

/-- **A template that shows the ID puts it on a line that is no comment**, if the subject is one
line and no comment. -/
theorem ShowsIssue.putsIssue (h : template.ShowsIssue) (hid : IssueId.IsSolid (values .issueId))
    (hline : '\n' ∉ values .subject)
    (hsubject : IssueId.isComment (trim (values .subject)) = false) :
    template.PutsIssue values := by
  obtain ⟨before, line, after, hpieces, hbefore, hfeed, hbody, hown⟩ := h
  refine ⟨before ++ line, after, hpieces, ?_⟩
  have hmem := not_mem_flatMap_fill hid.not_mem_feed hline hfeed hbody
  have hlast : lastLine ((before ++ line).flatMap (Piece.fill values))
      = line.flatMap (Piece.fill values) := by
    rw [List.flatMap_append]
    rcases hbefore with rfl | hbefore
    · exact lastLine_of_not_mem hmem
    · obtain ⟨front, rfl⟩ := List.getLast?_eq_some_iff.1 hbefore
      rw [List.flatMap_append, List.flatMap_singleton, Piece.fill, List.append_assoc,
        List.singleton_append, lastLine_append_feed, lastLine_of_not_mem hmem]
  rw [hlast]
  exact isComment_flatMap_fill hid hsubject hbody hown

end Template

namespace CommitMessage

variable {branch id message amended : Text} {template : Template}

/-- A message whose subject is a comment mentions the ID behind it. -/
theorem mentionedIn_layOut_of_comment {subject : Text} (hid : IssueId.IsSolid id)
    (h : IssueId.isComment subject = true) (body : Text) (template : Template) :
    IssueId.mentionedIn id (layOut id subject body template) = true := by
  have hline : IssueId.mentionedIn id (bracketed id) = true :=
    IssueId.mentionedIn_append_solid (t := ['[']) hid (by decide) [']']
  rw [layOut_of_comment h, IssueId.mentionedIn_trim hid.ne_nil,
    IssueId.mentionedIn_append_feed hid.ne_nil, hline, Bool.or_true]

/-- With a template that shows the ID, every message that has been laid out mentions it. -/
theorem mentionedIn_layOut_of_showsIssue (hid : IssueId.IsSolid id) (hshows : template.ShowsIssue)
    (message : Text) :
    IssueId.mentionedIn id (layOut id (split message).1 (split message).2 template) = true := by
  cases hsubject : IssueId.isComment (split message).1 with
  | true => exact mentionedIn_layOut_of_comment hid hsubject _ _
  | false =>
      have htrimmed : IssueId.isComment (trim (split message).1) = false := by
        rw [trim_subject]
        exact hsubject
      have hputs : template.PutsIssue (values id (split message).1 (split message).2) :=
        hshows.putsIssue hid (not_mem_subject message) htrimmed
      rw [layOut_of_subject hsubject, IssueId.mentionedIn_trim hid.ne_nil]
      exact hputs.mentionedIn_fill hid rfl

/-- **When an amended message mentions the ID of its branch.**  It is left alone by a second
amendment exactly when it does.  It does when its subject was a comment, and otherwise exactly when
the template puts an ID on a line that is no comment, or its text mentions the ID without having
it filled in.  With a template that shows the ID, every amended message mentions it. -/
theorem mentionedIn_amended (hid : IssueId.find? branch = some id)
    (h : withIssue? branch message template = some amended) :
    (withIssue? branch (amended ++ "\n") template = none
        ↔ IssueId.mentionedIn id amended = true)
      ∧ (IssueId.isComment (split message).1 = true → IssueId.mentionedIn id amended = true)
      ∧ (IssueId.isComment (split message).1 = false →
          (IssueId.mentionedIn id amended = true
            ↔ template.PutsIssue (values id (split message).1 (split message).2)
              ∨ IssueId.mentionedIn id
                  (template.fill (values [] (split message).1 (split message).2)) = true))
      ∧ (template.ShowsIssue → IssueId.mentionedIn id amended = true) := by
  have hsolid := IssueId.isSolid_of_find? hid
  obtain ⟨-, rfl⟩ := (withIssue?_eq_some_iff hid).1 h
  have hcommented : IssueId.isComment (split message).1 = true → IssueId.mentionedIn id
      (layOut id (split message).1 (split message).2 template) = true :=
    fun hsubject => mentionedIn_layOut_of_comment hsolid hsubject _ _
  have hfilled : IssueId.isComment (split message).1 = false → (IssueId.mentionedIn id
      (layOut id (split message).1 (split message).2 template) = true
        ↔ template.PutsIssue (values id (split message).1 (split message).2)
          ∨ IssueId.mentionedIn id
              (template.fill (values [] (split message).1 (split message).2)) = true) := by
    intro hsubject
    rw [layOut_of_subject hsubject, IssueId.mentionedIn_trim hsolid.ne_nil]
    refine Template.mentionedIn_fill_iff hsolid rfl rfl ?_
    intro place hplace
    cases place with
    | subject => rfl
    | issueId => exact absurd rfl hplace
    | body => rfl
  exact ⟨withIssue?_ended_eq_none_iff hid, hcommented, hfilled,
    fun hshows => mentionedIn_layOut_of_showsIssue hsolid hshows message⟩

/-- A template that begins with the ID in brackets. -/
def idFirst : Template :=
  ⟨[.char '[', .slot .issueId, .char ']', .slot .subject, .char '\n', .slot .body], by decide⟩

/-- With a template that begins with the ID in brackets, the ID is mentioned. -/
theorem mentionedIn_amended_bracketed :
    IssueId.find? "feature/abc-7" = some "ABC-7"
      ∧ withIssue? "feature/abc-7" "# typo\nfix it\n" idFirst
        = some "# typo\nfix it\n\n[ABC-7]"
      ∧ withIssue? "feature/abc-7" "fix it\n# typo\n" idFirst
        = some "[ABC-7]fix it\n\n# typo"
      ∧ IssueId.mentionedIn "ABC-7" "[ABC-7]fix it\n\n# typo" = true := by
  have hid : IssueId.find? "feature/abc-7" = some "ABC-7" := by decide
  have hamended : withIssue? "feature/abc-7" "fix it\n# typo\n" idFirst
      = some "[ABC-7]fix it\n\n# typo" := by decide
  refine ⟨hid, by decide, hamended, (mentionedIn_amended hid hamended).2.2.2 ?_⟩
  exact ⟨[], [.char '['], [.char ']', .slot .subject, .char '\n', .slot .body], rfl, .inl rfl,
    by decide, by decide, by decide⟩

/-- A template can put the ID on a comment line. -/
theorem not_mentionedIn_amended :
    ¬ ∀ (branch message text id amended : Text) (template : Template),
      Template.parse text = .ok template → IssueId.find? branch = some id →
      withIssue? branch message template = some amended →
      IssueId.mentionedIn id amended = true
        ∧ withIssue? branch (amended ++ "\n") template = none := by
  intro h
  have hparse : Template.parse ("# " ++ Template.inBraces "issue_id" ++ "\n"
      ++ Template.inBraces "subject" ++ "\n" ++ Template.inBraces "body")
        = .ok ⟨[.char '#', .char ' ', .slot .issueId, .char '\n', .slot .subject, .char '\n',
          .slot .body], by decide⟩ := by decide
  have hmention := (h "ABC-7" "fix it\n" _ "ABC-7" "# ABC-7\nfix it" _ hparse (by decide)
    (by decide)).1
  exact absurd hmention (by decide)

end CommitMessage

end GitHooks

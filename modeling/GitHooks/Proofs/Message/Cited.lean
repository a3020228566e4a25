/-
**IDs inside longer ones.**

A message is left alone when one of its lines that is no comment has the ID in it, and nobody asks
what stands around it there.  So `ABC-7` counts as mentioned where only `ABC-70` or `XABC-7` is,
which are other issues.  A message cites an ID only where no letter stands directly before it and no
digit directly behind it; here it is said exactly which messages are left alone, and which of them
without citing the ID.

Main definitions:

* `IssueId.StandsIn` — an ID on a line of a message that is no comment;
* `IssueId.IsPart` — an ID that is part of a longer one;
* `IssueId.CitedIn` — an ID that stands in a message and is no part of a longer one.

Main results:

* `IssueId.mentionedIn_iff` — a message mentions the IDs that stand in it;
* `CommitMessage.left_alone_iff` — which messages are left alone, and which without a citation.
-/

import GitHooks.Proofs.Message.Standard

set_option relaxedAutoImplicit false
set_option autoImplicit false

namespace GitHooks

open Text

namespace IssueId

variable {id line message front back : Text}

/-- An ID on a line of a message that is no comment, between two pieces of that line. -/
structure StandsIn (id message front back : Text) : Prop where
  line : front ++ (id ++ back) ∈ lines message
  notComment : isComment (trim (front ++ (id ++ back))) = false

/-- An ID between two pieces of a line is part of a longer one: a letter stands directly before it,
or a digit directly behind it. -/
def IsPart (front back : Text) : Prop :=
  (∃ c, front.getLast? = some c ∧ c.isAlpha = true) ∨ ∃ d, back.head? = some d ∧ d.isDigit = true

/-- An ID that stands in a message and is no part of a longer one. -/
def CitedIn (id message : Text) : Prop :=
  ∃ front back, StandsIn id message front back ∧ ¬ IsPart front back

/-- Trimming a line keeps the IDs on it. -/
theorem IsSolid.infix_trim_iff (h : IsSolid id) (line : Text) :
    id <:+: trim line ↔ id <:+: line := by
  constructor
  · intro hin
    obtain ⟨front, back, -, -, -, hline⟩ := exists_trim_append line
    rw [hline]
    exact hin.trans ⟨front, back, rfl⟩
  · rintro ⟨front, back, rfl⟩
    rw [List.append_assoc, h.trim_append]
    exact ⟨trimStart front, trimEnd back, List.append_assoc _ _ _⟩

/-- **A message mentions the IDs that stand in it.** -/
theorem mentionedIn_iff (h : IsSolid id) :
    mentionedIn id message = true ↔ ∃ front back, StandsIn id message front back := by
  rw [mentionedIn, List.any_filter, List.any_map, List.any_eq_true]
  constructor
  · rintro ⟨line, hline, hmention⟩
    obtain ⟨hcomment, hoccurs⟩ : isComment (trim line) = false
        ∧ occursIn id (trim line) = true := by
      simpa using hmention
    obtain ⟨front, back, rfl⟩ := (h.infix_trim_iff line).1 (occursIn_iff.1 hoccurs)
    rw [List.append_assoc] at hline hcomment
    exact ⟨front, back, hline, hcomment⟩
  · rintro ⟨front, back, hline, hcomment⟩
    have hoccurs : occursIn id (trim (front ++ (id ++ back))) = true :=
      occursIn_iff.2 ((h.infix_trim_iff _).2 ⟨front, back, List.append_assoc _ _ _⟩)
    exact ⟨_, hline, by simp [hcomment, hoccurs]⟩

/-- The pieces around an ID are told by where it stands. -/
theorem parts_of_eq (h : front ++ (id ++ back) = line) : front.length ≤ line.length
    ∧ id <+: line.drop front.length ∧ front = line.take front.length
    ∧ back = line.drop (front.length + id.length) := by
  subst h
  simp [← List.drop_drop]

end IssueId

namespace CommitMessage

open IssueId

variable {branch id : Text}

/-- **Which messages are left alone**: those in which the ID stands on a line that is no comment.
A message is left alone without citing the ID exactly when the ID stands in it, but each time as
part of a longer one. -/
theorem left_alone_iff (hid : find? branch = some id) (message : Text) (template : Template) :
    (withIssue? branch message template = none ↔ ∃ front back, StandsIn id message front back)
      ∧ (withIssue? branch message template = none ∧ ¬ CitedIn id message
        ↔ (∃ front back, StandsIn id message front back)
          ∧ ∀ front back, StandsIn id message front back → IsPart front back) := by
  have hnone : withIssue? branch message template = none
      ↔ ∃ front back, StandsIn id message front back := by
    rw [withIssue?_eq_none_iff hid, mentionedIn_iff (isSolid_of_find? hid)]
  have hcited : ¬ CitedIn id message
      ↔ ∀ front back, StandsIn id message front back → IsPart front back := by
    simp only [CitedIn, not_exists, not_and, not_not]
  exact ⟨hnone, and_congr hnone hcited⟩

/-- The ID `ABC-7` stands in one place of a message about `ABC-70`. -/
theorem standsIn_longer_iff {front back : Text} :
    StandsIn "ABC-7" "Revert ABC-70\n" front back ↔ front = "Revert ".toList ∧ back = ['0'] := by
  constructor
  · rintro ⟨hline, -⟩
    have hlines : lines "Revert ABC-70\n" = ["Revert ABC-70".toList] := by decide
    rw [hlines, List.mem_singleton] at hline
    obtain ⟨hle, hid, hfront, hback⟩ := parts_of_eq hline
    have hplace : ∀ n ≤ "Revert ABC-70".toList.length,
        "ABC-7".toList <+: "Revert ABC-70".toList.drop n → n = 7 := by decide
    rw [hplace _ hle hid] at hfront hback
    exact ⟨hfront, hback⟩
  · rintro ⟨rfl, rfl⟩
    exact ⟨by decide, by decide⟩

/-- A message about `ABC-70` is left alone on the branch of `ABC-7`. -/
theorem left_alone_longer : find? "ABC-7" = some "ABC-7"
    ∧ withIssue? "ABC-7" "Revert ABC-70\n" Template.standard = none
    ∧ ¬ CitedIn "ABC-7" "Revert ABC-70\n" := by
  have hid : find? "ABC-7" = some "ABC-7" := by decide
  refine ⟨hid, (left_alone_iff hid _ _).2.2 ⟨⟨_, _, standsIn_longer_iff.2 ⟨rfl, rfl⟩⟩, ?_⟩⟩
  intro front back h
  obtain ⟨rfl, rfl⟩ := standsIn_longer_iff.1 h
  exact .inr ⟨'0', rfl, by decide⟩

/-- A message that is left alone need not cite the ID of its branch. -/
theorem not_cited_of_left_alone :
    ¬ ∀ (branch message text id : Text) (template : Template),
      Template.parse text = .ok template → find? branch = some id →
      withIssue? branch message template = none → CitedIn id message := by
  intro h
  obtain ⟨front, back, hstands, hcited⟩ := h "ABC-7" "Revert ABC-70\n" Template.standardText "ABC-7"
    Template.standard Template.parse_standardText (by decide) (by decide)
  obtain ⟨rfl, rfl⟩ := standsIn_longer_iff.1 hstands
  exact hcited (.inr ⟨'0', rfl, by decide⟩)

end CommitMessage

end GitHooks

/-
**Amending a message a second time.**

The hook writes an amended message back with a line feed behind it.  With the standard template the
message mentions the ID then, so that a second run finds nothing to do.

Main results:

* `AddIssue.run_of_none`, `AddIssue.run_of_some` — the files after a run;
* `AddIssue.amended_once` — an amended message has one line more, and is not amended again.
-/

import GitHooks.Hook
import GitHooks.Proofs.Hook.SingleFile
import GitHooks.Proofs.Message.Standard

set_option relaxedAutoImplicit false
set_option autoImplicit false

namespace GitHooks

namespace AddIssue

open Text
open CommitMessage

variable {site : Site} {tree : FileTree} {arguments : List Text} {given : CommandLine.Given}
  {path message amended branch id : Text} {template : Template}

/-! ### Runs -/

/-- A run amends the message in the file that is given. -/
theorem run_eq (site : Site) (tree : FileTree)
    (hgiven : CommandLine.parse grammar arguments = .ok given)
    (htemplate : Template.parse ((given.value? "template").getD Template.standardText)
      = .ok template) (hpath : given.operands = [path]) :
    ∃ warning, Hook.addIssue.run site tree arguments = .finished
      (amend template (branchOf site).1 site tree path).1
      (warning ++ (amend template (branchOf site).1 site tree path).2) := by
  refine ⟨(branchOf site).2, ?_⟩
  rw [Hook.run, Hook.runOn, Hook.grammar, hgiven]
  simp only [Hook.performOn, Hook.fileHook?, runOn, htemplate, hpath, List.headD_cons, amend]

/-- A message that needs no ID is left as it is, and so is every other file. -/
theorem run_of_none (hgiven : CommandLine.parse grammar arguments = .ok given)
    (htemplate : Template.parse ((given.value? "template").getD Template.standardText)
      = .ok template) (hpath : given.operands = [path])
    (hread : tree.read site.directory path = .ok message)
    (hnone : withIssue? (branchOf site).1 message template = none) :
    ∃ report, Hook.addIssue.run site tree arguments = .finished tree report := by
  obtain ⟨warning, hrun⟩ := run_eq site tree hgiven htemplate hpath
  rw [amend, amendOn, FileHook.contentOf_of_read hread] at hrun
  simp only [hnone] at hrun
  exact ⟨_, hrun⟩

/-- A message that needs an ID is written with it, and a line feed behind it. -/
theorem run_of_some (hgiven : CommandLine.parse grammar arguments = .ok given)
    (htemplate : Template.parse ((given.value? "template").getD Template.standardText)
      = .ok template) (hpath : given.operands = [path])
    (hread : tree.read site.directory path = .ok message)
    (hsome : withIssue? (branchOf site).1 message template = some amended) :
    ∃ report, Hook.addIssue.run site tree arguments
      = .finished (tree.write site.directory path (amended ++ "\n")) report := by
  obtain ⟨warning, hrun⟩ := run_eq site tree hgiven htemplate hpath
  rw [amend, amendOn, FileHook.contentOf_of_read hread] at hrun
  simp only [hsome, Disk.refusal?_obliging] at hrun
  exact ⟨_, hrun⟩

/-- **With the standard template an amended message has one line more.**  What it says is what the
message said, line by line, and the ID in brackets: behind the first line, or behind all of them if
the first line is a comment.  Amended once, it is not amended again; and when a run of the hook has
written it, a second run leaves all files as they are. -/
theorem amended_once (htemplate : Template.parse Template.standardText = .ok template)
    (hid : IssueId.find? branch = some id)
    (h : withIssue? branch message template = some amended) :
    contents (lines amended)
        = (if IssueId.isComment (trim ((lines message).headD [])) then
            contents (lines message) ++ ['[' :: (id ++ [']'])]
          else contents ((lines message).take 1) ++ ['[' :: (id ++ [']'])]
            ++ contents ((lines message).drop 1))
      ∧ withIssue? branch (amended ++ "\n") template = none
      ∧ ∀ (site : Site) (tree : FileTree) (arguments : List Text) (given : CommandLine.Given)
          (path : Text), CommandLine.parse grammar arguments = .ok given →
        given.value? "template" = none → given.operands = [path] →
        (branchOf site).1 = branch → tree.read site.directory path = .ok message →
        ∃ tree' first second, Hook.addIssue.run site tree arguments = .finished tree' first
          ∧ tree'.read site.directory path = .ok (amended ++ "\n")
          ∧ Hook.addIssue.run site tree' arguments = .finished tree' second := by
  obtain rfl : Template.standard = template :=
    Except.ok.inj (Template.parse_standardText.symm.trans htemplate)
  have hlayOut := ((withIssue?_eq_some_iff hid).1 h).2
  have hmentioned : IssueId.mentionedIn id amended = true := by
    rw [← hlayOut]
    exact mentionedIn_layOut_of_showsIssue (IssueId.isSolid_of_find? hid)
      Template.showsIssue_standard message
  have hnone : withIssue? branch (amended ++ "\n") Template.standard = none :=
    (withIssue?_ended_eq_none_iff hid).2 hmentioned
  refine ⟨?_, hnone, ?_⟩
  · rw [trim_headD_lines, contents_lines_message message, contents_take_lines,
      contents_drop_lines, ← hlayOut]
    exact contents_lines_layOut (IssueId.isSolid_of_find? hid) (not_mem_subject message) _
  · rintro site tree arguments given path hgiven hdefault hpath rfl hread
    have hparse : Template.parse ((given.value? "template").getD Template.standardText)
        = .ok Template.standard := by rw [hdefault, Option.getD_none, htemplate]
    obtain ⟨first, hfirst⟩ := run_of_some hgiven hparse hpath hread h
    have hread' := FileTree.read_write hread (amended ++ "\n")
    obtain ⟨second, hsecond⟩ := run_of_none hgiven hparse hpath hread' hnone
    exact ⟨_, first, second, hfirst, hread', hsecond⟩

/-- On the branch `abc-7`, a message with a comment behind it is amended once. -/
theorem amended_once_comment :
    Template.parse Template.standardText = .ok Template.standard
      ∧ IssueId.find? "abc-7" = some "ABC-7"
      ∧ withIssue? "abc-7" "fix it\n\n# typo\n" Template.standard
        = some "fix it\n\n[ABC-7]\n\n# typo"
      ∧ contents (lines "fix it\n\n[ABC-7]\n\n# typo") = ["fix it", "[ABC-7]", "# typo"]
      ∧ ∃ tree' first second,
        Hook.addIssue.run ⟨[], some ⟨default, ⟨"abc-7\n", [], true⟩, default, default⟩, 2024, false⟩
            ⟨[(["MSG"], .file (encode "fix it\n\n# typo\n"))]⟩ ["MSG"] = .finished tree' first
          ∧ tree'.read [] "MSG" = .ok "fix it\n\n[ABC-7]\n\n# typo\n"
          ∧ Hook.addIssue.run ⟨[], some ⟨default, ⟨"abc-7\n", [], true⟩, default, default⟩, 2024,
              false⟩ tree' ["MSG"] = .finished tree' second := by
  have hid : IssueId.find? "abc-7" = some "ABC-7" := by decide
  have hamended : withIssue? "abc-7" "fix it\n\n# typo\n" Template.standard
      = some "fix it\n\n[ABC-7]\n\n# typo" := by decide
  obtain ⟨hcontents, -, hruns⟩ := amended_once Template.parse_standardText hid hamended
  refine ⟨Template.parse_standardText, hid, hamended, hcontents.trans (by decide), ?_⟩
  exact hruns ⟨[], some ⟨default, ⟨"abc-7\n", [], true⟩, default, default⟩, 2024, false⟩
    ⟨[(["MSG"], .file (encode "fix it\n\n# typo\n"))]⟩ ["MSG"] ⟨[], ["MSG"]⟩ "MSG" (by decide) rfl
    rfl (by decide) (FileTree.read_of_fileAt? rfl rfl)

end AddIssue

end GitHooks

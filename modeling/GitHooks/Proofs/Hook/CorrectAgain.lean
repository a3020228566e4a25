/-
**Reporting spellings and correcting them.**

A run that reports spellings and a run that corrects them look for the same: what is found in the
lines of a file is what is found in its content, wherever the content is cut into lines, since no
word reaches over the end of a line.  So the one run finds a violation exactly when the other
rewrites the file.  In what is written back nothing is found, whatever lines it is read as then; so
when a file has been corrected, both runs pass.

Main definitions:

* `Americanise.contentAfter` — the content of a file when its spellings have been corrected.

Main results:

* `Spelling.check_parse_iff`, `Spelling.check_render_iff` — findings in the lines of a buffer, in
  the content it was read from, and in the content it is written as;
* `Americanise.check_contentAfter` — nothing is found in a corrected file;
* `Americanise.reporting_and_fixing_agree` — lines, and runs over a file.
-/

import GitHooks.Proofs.Buffer.ReadBack
import GitHooks.Proofs.FileTree.Writing
import GitHooks.Proofs.Hook.LineNumbers
import GitHooks.Proofs.Hook.SingleFile
import GitHooks.Proofs.Spelling.Corrected

set_option relaxedAutoImplicit false
set_option autoImplicit false

namespace GitHooks

open Text

/-! ### Findings in the lines of a buffer -/

namespace Spelling

variable {c : Char} {content : Text}

theorem check_append_cons_iff (hc : isWord c = false) (u t : Text) :
    check (u ++ c :: t) = [] ↔ check u = [] ∧ check t = [] := by
  rw [check_append_cons hc, List.append_eq_nil_iff, List.map_eq_nil_iff]

/-- Nothing is found across a line ending. -/
theorem check_append_newline_iff (newline : Newline) (u t : Text) :
    check (u ++ (newline.text ++ t)) = [] ↔ check u = [] ∧ check t = [] := by
  have hfeed : isWord '\n' = false := isWord_of_isSpace (by decide)
  have hreturn : isWord '\r' = false := isWord_of_isSpace (by decide)
  cases newline with
  | lf => exact check_append_cons_iff hfeed u t
  | crlf =>
      have hbehind := check_append_cons_iff hfeed [] t
      exact (check_append_cons_iff hreturn u ('\n' :: t)).trans
        (and_congr_right fun _ => hbehind.trans (and_iff_right rfl))

theorem check_joinWith_iff (newline : Newline) (lines : List Text) :
    check (joinWith newline.text lines) = [] ↔ ∀ line ∈ lines, check line = [] := by
  induction lines with
  | nil => exact iff_of_true rfl fun _ h => absurd h List.not_mem_nil
  | cons line rest ih =>
      by_cases hrest : rest = []
      · subst hrest
        simp [joinWith]
      · rw [joinWith_cons _ _ hrest, List.append_assoc, check_append_newline_iff, ih,
          List.forall_mem_cons]

/-- Nothing is found in what a buffer is written as exactly when nothing is found in its lines. -/
theorem check_render_iff (buffer : Buffer) :
    check buffer.render = [] ↔ ∀ line ∈ buffer.lines, check line = [] := by
  rw [Buffer.render, ← check_joinWith_iff buffer.newline]
  cases buffer.finalNewline with
  | false => rw [if_neg Bool.false_ne_true, List.append_nil]
  | true =>
      have hended := check_append_newline_iff buffer.newline
        (joinWith buffer.newline.text buffer.lines) []
      rw [List.append_nil] at hended
      rw [if_pos rfl]
      exact hended.trans (and_iff_left rfl)

/-- A character at the end that is part of no word may be dropped. -/
theorem check_dropTrailing_iff (hc : isWord c = false) (t : Text) :
    check ((dropTrailing? [c] t).getD t) = [] ↔ check t = [] := by
  cases h : dropTrailing? [c] t with
  | none => rfl
  | some u =>
      rw [dropTrailing?_eq_some_iff.1 h, Option.getD_some, check_append_cons_iff hc]
      exact (and_iff_left rfl).symm

theorem check_bodyOf_iff (newline : Newline) (content : Text) :
    check (Buffer.bodyOf newline content) = [] ↔ check content = [] := by
  have hfeed := check_dropTrailing_iff (c := '\n') (isWord_of_isSpace (by decide)) content
  have hreturn := check_dropTrailing_iff (c := '\r') (isWord_of_isSpace (by decide))
  cases newline with
  | lf => exact hfeed
  | crlf => exact (hreturn _).trans hfeed

/-- Nothing is found in the lines that a content is read as exactly when nothing is found in the
content. -/
theorem check_parse_iff (content : Text) :
    (∀ line ∈ (Buffer.parse content).lines, check line = []) ↔ check content = [] := by
  by_cases hne : content = []
  · subst hne
    exact iff_of_true (fun _ h => absurd h List.not_mem_nil) rfl
  · rw [Buffer.lines_parse hne, ← check_joinWith_iff (Newline.ofText content),
      joinWith_splitOn (Newline.text_ne_nil _), check_bodyOf_iff]

end Spelling

namespace Americanise

variable {path content : Text}

/-! ### What becomes of a file -/

theorem messages_eq_nil_iff (lines : List Text) :
    messages lines = [] ↔ ∀ line ∈ lines, Spelling.check line = [] := by
  rw [messages_eq_messagesFrom]
  suffices h : ∀ n, messagesFrom 0 n lines = [] ↔ ∀ line ∈ lines, Spelling.check line = [] from h 0
  induction lines with
  | nil => exact fun n => iff_of_true rfl fun _ h => absurd h List.not_mem_nil
  | cons line rest ih =>
      intro n
      rw [messagesFrom_cons, List.append_eq_nil_iff, ih, messagesOn, List.map_eq_nil_iff,
        List.forall_mem_cons]

/-- Lines are left as they are exactly when nothing is found in them. -/
theorem map_correct_eq_iff (lines : List Text) :
    lines.map Spelling.correct = lines ↔ ∀ line ∈ lines, Spelling.check line = [] := by
  induction lines with
  | nil => exact iff_of_true rfl fun _ h => absurd h List.not_mem_nil
  | cons line rest ih =>
      rw [List.map_cons, List.cons.injEq, ih, List.forall_mem_cons, Spelling.check_eq_nil_iff]

/-- The content of a file when its spellings have been corrected: it is written only if its lines
have changed. -/
def contentAfter (content : Text) : Text :=
  let buffer := Buffer.parse content
  let lines := buffer.lines.map Spelling.correct
  if lines = buffer.lines then content else (buffer.withLines lines).render

/-- **Nothing is found in a corrected file.** -/
theorem check_contentAfter (content : Text) : Spelling.check (contentAfter content) = [] := by
  rw [contentAfter]
  split
  · next hlines => exact (Spelling.check_parse_iff content).1 ((map_correct_eq_iff _).1 hlines)
  · rw [Spelling.check_render_iff, Buffer.withLines_lines]
    intro line hline
    obtain ⟨original, -, rfl⟩ := List.mem_map.1 hline
    exact Spelling.check_correct original

/-- A file has the content it had exactly when nothing is found in it. -/
theorem contentAfter_eq_iff (content : Text) :
    contentAfter content = content ↔ Spelling.check content = [] := by
  constructor
  · intro h
    rw [← h]
    exact check_contentAfter content
  · intro h
    exact if_pos ((map_correct_eq_iff _).2 ((Spelling.check_parse_iff content).2 h))

theorem report_of_nothing_found (h : Spelling.check content = []) (path : Text) :
    report path (.ok content) = .ok ⟨[], .unchanged⟩ := by
  rw [report_eq, (messages_eq_nil_iff _).2 ((Spelling.check_parse_iff content).2 h)]
  rfl

theorem exists_report_of_found (h : Spelling.check content ≠ []) (path : Text) :
    ∃ messages, report path (.ok content) = .ok ⟨[], .violation messages⟩ := by
  have hne : messages (Buffer.parse content).lines ≠ [] := fun hnil =>
    h ((Spelling.check_parse_iff content).1 ((messages_eq_nil_iff _).1 hnil))
  refine ⟨messages (Buffer.parse content).lines, ?_⟩
  rw [report_eq, Judgement.ofViolations, if_neg (by simpa using hne)]

theorem correct_of_nothing_found (h : Spelling.check content = []) (path : Text) :
    correct path (.ok content) = .ok ⟨[], .unchanged⟩ := by
  have hlines := (map_correct_eq_iff _).2 ((Spelling.check_parse_iff content).2 h)
  simp only [correct, bind, Except.bind, if_pos hlines]
  rfl

theorem correct_of_found (h : Spelling.check content ≠ []) (path : Text) :
    correct path (.ok content) = .ok ⟨[], .modified (contentAfter content)⟩ := by
  have hlines : (Buffer.parse content).lines.map Spelling.correct ≠ (Buffer.parse content).lines :=
    fun hlines => h ((Spelling.check_parse_iff content).1 ((map_correct_eq_iff _).1 hlines))
  simp only [correct, bind, Except.bind, contentAfter, if_neg hlines]
  rfl

/-! ### Runs -/

section Runs

variable {site : Site} {tree : FileTree} {arguments : List Text} {given : CommandLine.Given}

/-- A run over one file judges it, for correction if the command line asks for that. -/
theorem run_eq (hgiven : CommandLine.parse grammar arguments = .ok given)
    (hpath : given.operands = [path]) (hread : tree.read site.directory path = .ok content) :
    let judgement := (if given.has "fix" then correct else report) path (.ok content)
    Hook.americanise.run site tree arguments
      = .finished (FileHook.carryOut tree site.directory path judgement)
        (Report.ofJudgement "americanise" (Path.shown site.path path) judgement) := by
  have hfileHook : Hook.americanise.fileHook? given = some (hook given) := rfl
  have hprepare : (hook given).prepare site tree
      = .ok (if given.has "fix" then correct else report) := rfl
  rw [Hook.run_single .americanise hgiven hfileHook hpath hread rfl hprepare]
  rfl

/-- Where nothing is found, a file is left as it is, and so is every other file. -/
theorem run_of_nothing_found (hgiven : CommandLine.parse grammar arguments = .ok given)
    (hpath : given.operands = [path]) (hread : tree.read site.directory path = .ok content)
    (h : Spelling.check content = []) :
    Hook.americanise.run site tree arguments = .finished tree
      (Report.ofVerdict "americanise" (Path.shown site.path path) .unchanged) := by
  have hjudgement : (if given.has "fix" then correct else report) path (.ok content)
      = .ok ⟨[], .unchanged⟩ := by
    split
    · exact correct_of_nothing_found h path
    · exact report_of_nothing_found h path
  have hrun := run_eq hgiven hpath hread
  rw [hjudgement] at hrun
  exact hrun

/-- Where something is found, a run that reports leaves all files as they are. -/
theorem run_report_of_found (hgiven : CommandLine.parse grammar arguments = .ok given)
    (hfix : given.has "fix" = false) (hpath : given.operands = [path])
    (hread : tree.read site.directory path = .ok content) (h : Spelling.check content ≠ []) :
    ∃ messages, Hook.americanise.run site tree arguments = .finished tree
      (Report.ofVerdict "americanise" (Path.shown site.path path) (.violation messages)) := by
  obtain ⟨messages, hjudgement⟩ := exists_report_of_found h path
  have hrun := run_eq hgiven hpath hread
  rw [hfix, if_neg Bool.false_ne_true, hjudgement] at hrun
  exact ⟨messages, hrun⟩

/-- Where something is found, a run that corrects writes the file. -/
theorem run_fix_of_found (hgiven : CommandLine.parse grammar arguments = .ok given)
    (hfix : given.has "fix" = true) (hpath : given.operands = [path])
    (hread : tree.read site.directory path = .ok content) (h : Spelling.check content ≠ []) :
    Hook.americanise.run site tree arguments
      = .finished (tree.write site.directory path (contentAfter content))
        (Report.ofVerdict "americanise" (Path.shown site.path path)
          (.modified (contentAfter content))) := by
  have hrun := run_eq hgiven hpath hread
  rw [hfix, if_pos rfl, correct_of_found h path] at hrun
  exact hrun

/-- Where nothing is found, every run passes. -/
theorem passes_of_nothing_found (hgiven : CommandLine.parse grammar arguments = .ok given)
    (hpath : given.operands = [path]) (hread : tree.read site.directory path = .ok content)
    (h : Spelling.check content = []) : Hook.americanise.Passes site tree arguments :=
  ⟨_, run_of_nothing_found hgiven hpath hread h, rfl, rfl⟩

variable {reporting fixing : List Text} {given' : CommandLine.Given}

/-- **Reporting spellings and correcting them agree.**  The findings of a line stand at their
columns, none reaches into the next, and the corrected line is the line with each of them replaced
by its suggestion; a line with no findings is left as it is, and no other line is; and a corrected
line has no findings.  Over a file, a run that reports finds a violation exactly when a run that
corrects rewrites the file, which is exactly when its content changes; and when the file has been
corrected, both runs pass. -/
theorem reporting_and_fixing_agree
    (hreporting : CommandLine.parse grammar reporting = .ok given)
    (hreport : given.has "fix" = false) (hpath : given.operands = [path])
    (hfixing : CommandLine.parse grammar fixing = .ok given')
    (hfix : given'.has "fix" = true) (hpath' : given'.operands = [path])
    (hread : tree.read site.directory path = .ok content) :
    (∀ line, (∀ finding ∈ Spelling.check line, finding.StandsIn line)
        ∧ ((Spelling.check line).Pairwise fun first second =>
          first.column + first.found.length ≤ second.column)
        ∧ (Spelling.check line).foldr Spelling.Finding.replaceIn line = Spelling.correct line
        ∧ (Spelling.check line = [] ↔ Spelling.correct line = line)
        ∧ Spelling.check (Spelling.correct line) = [])
      ∧ ∃ tree' reported fixed written,
        Hook.americanise.run site tree reporting = .finished tree reported
          ∧ Hook.americanise.run site tree fixing = .finished tree' fixed
          ∧ tree'.read site.directory path = .ok written
          ∧ ((∃ messages, reported = Report.ofVerdict "americanise" (Path.shown site.path path)
                (.violation messages))
              ↔ fixed = Report.ofVerdict "americanise" (Path.shown site.path path)
                (.modified written))
          ∧ (fixed = Report.ofVerdict "americanise" (Path.shown site.path path) (.modified written)
              ↔ written ≠ content)
          ∧ Hook.americanise.Passes site tree' fixing
          ∧ Hook.americanise.Passes site tree' reporting := by
  refine ⟨fun line => ⟨fun finding hfinding => Spelling.standsIn_of_mem_check hfinding,
    Spelling.pairwise_check line, Spelling.foldr_replaceIn_check line,
    Spelling.check_eq_nil_iff line, Spelling.check_correct line⟩, ?_⟩
  by_cases hfound : Spelling.check content = []
  · -- neither run finds anything
    have hunchanged : ∀ verdict, verdict ≠ .unchanged →
        Report.ofVerdict "americanise" (Path.shown site.path path) .unchanged
          ≠ Report.ofVerdict "americanise" (Path.shown site.path path) verdict := by
      intro verdict hne heq
      cases verdict with
      | unchanged => exact hne rfl
      | modified _ => exact Bool.noConfusion (congrArg Report.failing heq)
      | violation _ => exact Bool.noConfusion (congrArg Report.failing heq)
    refine ⟨tree, _, _, content, run_of_nothing_found hreporting hpath hread hfound,
      run_of_nothing_found hfixing hpath' hread hfound, hread, ?_, ?_,
      passes_of_nothing_found hfixing hpath' hread hfound,
      passes_of_nothing_found hreporting hpath hread hfound⟩
    · refine iff_of_false ?_ (hunchanged _ (by simp))
      rintro ⟨messages, heq⟩
      exact hunchanged _ (by simp) heq
    · exact iff_of_false (hunchanged _ (by simp)) (fun hne => hne rfl)
  · obtain ⟨messages, hreported⟩ := run_report_of_found hreporting hreport hpath hread hfound
    have hwritten := FileTree.read_write hread (contentAfter content)
    have hclean := check_contentAfter content
    refine ⟨_, _, _, contentAfter content, hreported,
      run_fix_of_found hfixing hfix hpath' hread hfound, hwritten, ?_, ?_,
      passes_of_nothing_found hfixing hpath' hwritten hclean,
      passes_of_nothing_found hreporting hpath hwritten hclean⟩
    · exact iff_of_true ⟨messages, rfl⟩ rfl
    · exact iff_of_true rfl (mt (contentAfter_eq_iff content).1 hfound)

end Runs

/-- A capitalised plural is reported, and corrected once. -/
theorem reporting_and_fixing_agree_colours :
    let site : Site := ⟨[], none, 2024, false⟩
    let tree : FileTree := ⟨[(["a.md"], .file (encode "Two Colours.\n"))]⟩
    CommandLine.parse grammar ["a.md"] = .ok ⟨[], ["a.md"]⟩
      ∧ CommandLine.parse grammar ["--fix", "a.md"] = .ok ⟨[("fix", [])], ["a.md"]⟩
      ∧ tree.read site.directory "a.md" = .ok "Two Colours.\n"
      ∧ Spelling.check "Two Colours." = [⟨5, "Colours", "Colors"⟩]
      ∧ (Spelling.check "Two Colours.").foldr Spelling.Finding.replaceIn "Two Colours."
        = Spelling.correct "Two Colours."
      ∧ ∃ tree' fixed, Hook.americanise.run site tree ["--fix", "a.md"] = .finished tree' fixed
        ∧ Hook.americanise.Passes site tree' ["--fix", "a.md"]
        ∧ Hook.americanise.Passes site tree' ["a.md"] := by
  intro site tree
  have hreporting : CommandLine.parse grammar ["a.md"] = .ok ⟨[], ["a.md"]⟩ := by decide
  have hfixing : CommandLine.parse grammar ["--fix", "a.md"] = .ok ⟨[("fix", [])], ["a.md"]⟩ := by
    decide
  have hread : tree.read site.directory "a.md" = .ok "Two Colours.\n" :=
    FileTree.read_of_fileAt? rfl rfl
  obtain ⟨hline, tree', _, fixed, _, -, hrun, -, -, -, hagain, hreport⟩ :=
    reporting_and_fixing_agree hreporting rfl rfl hfixing (by decide) rfl hread
  have hcheck : Spelling.check "Two Colours." = [⟨5, "Colours", "Colors"⟩] := by
    rw [Spelling.check_eq_checkRuns]
    decide +kernel
  exact ⟨hreporting, hfixing, hread, hcheck, (hline _).2.2.1, tree', fixed, hrun, hagain,
    hreport⟩

end Americanise

end GitHooks

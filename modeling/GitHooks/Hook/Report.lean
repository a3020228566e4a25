/-
**What a hook reports.**

A hook judges each file: it remarks on it, and either leaves it, gives it other content, or finds
violations in it.  What it tells about a file goes three ways.  The paths of modified files are the
output; everything else a user should know is a complaint; decisions are noted in the journal.
A hook that modified a file, or found something wrong, has failed, so that the commit is stopped.

Main definitions:

* `Remark`, `Verdict`, `Judgement` — what a hook finds about a file;
* `Report` — output, complaints, journal, and whether the hook failed;
* `Report.ofJudgement`, `Report.ofRefusal` — the report on a file, and on one that the disk refuses
  to replace;
* `Report.fatal` — the report on a hook that cannot start.

Main results:

* `Report.append_assoc`, `Report.empty_append`, `Report.append_empty` — reports are put together
  in any grouping.
-/

import GitHooks.Disk
import GitHooks.Journal

set_option relaxedAutoImplicit false
set_option autoImplicit false

namespace GitHooks

open Text

/-! ### Findings about a file -/

/-- Something that a user is told about a file beside the verdict. -/
inductive Remark where
  /-- Something that may be wrong. -/
  | warning (message : Text)
  /-- A detail of a change. -/
  | note (message : Text)
deriving DecidableEq, Repr, Inhabited

/-- What a hook makes of a file. -/
inductive Verdict where
  | unchanged
  | modified (content : Text)
  | violation (messages : List Text)
deriving DecidableEq, Repr, Inhabited

/-- What a hook finds about a file. -/
structure Judgement where
  remarks : List Remark
  verdict : Verdict
deriving DecidableEq, Repr, Inhabited

/-! ### Reports -/

/-- What a hook reports. -/
structure Report where
  /-- The paths of modified files. -/
  output : List Text
  complaints : List Text
  journal : List Journal.Entry
  /-- Whether the hook failed. -/
  failing : Bool
deriving DecidableEq, Repr, Inhabited

namespace Report

/-- The report that says nothing. -/
def empty : Report := ⟨[], [], [], false⟩

/-- Two reports, one after the other. -/
def append (first second : Report) : Report :=
  ⟨first.output ++ second.output, first.complaints ++ second.complaints,
    first.journal ++ second.journal, first.failing || second.failing⟩

instance : Append Report := ⟨append⟩

@[simp] theorem output_append (first second : Report) :
    (first ++ second).output = first.output ++ second.output := rfl

@[simp] theorem failing_append (first second : Report) :
    (first ++ second).failing = (first.failing || second.failing) := rfl

@[simp] theorem empty_append (report : Report) : empty ++ report = report := rfl

@[simp] theorem append_empty (report : Report) : report ++ empty = report := by
  obtain ⟨output, complaints, journal, failing⟩ := report
  change append _ _ = _
  simp [append, empty]

theorem append_assoc (a b c : Report) : a ++ b ++ c = a ++ (b ++ c) := by
  change append (append a b) c = append a (append b c)
  simp [append, Bool.or_assoc]

/-- The report of a remark on the file that is shown as `shown`. -/
def ofRemark (hook shown : Text) : Remark → Report
  | .warning message =>
    ⟨[], [hook ++ ": warning: " ++ shown ++ ": " ++ message],
      [Journal.entry hook shown "warning" message], false⟩
  | .note message => ⟨[], [shown ++ ": " ++ message], [], false⟩

/-- The report of a verdict. -/
def ofVerdict (hook shown : Text) : Verdict → Report
  | .unchanged => ⟨[], [], [Journal.entry hook shown "unchanged" []], false⟩
  | .modified _ => ⟨[shown], [], [Journal.entry hook shown "modified" []], true⟩
  | .violation messages =>
    ⟨[], messages.map fun message => shown ++ ": " ++ message,
      [Journal.entry hook shown "violation" (joinWith "; " messages)], true⟩

/-- The report on a file that could not be processed. -/
def failed (hook shown message : Text) : Report :=
  ⟨[], [hook ++ ": " ++ shown ++ ": " ++ message], [Journal.entry hook shown "failed" message],
    true⟩

/-- The report of some remarks on a file, and of what follows them. -/
def withRemarks (hook shown : Text) (remarks : List Remark) (rest : Report) : Report :=
  remarks.foldr (fun remark rest => ofRemark hook shown remark ++ rest) rest

/-- The report of everything that a hook finds about a file. -/
def ofJudgement (hook shown : Text) : Except HookError Judgement → Report
  | .ok judgement =>
    withRemarks hook shown judgement.remarks (ofVerdict hook shown judgement.verdict)
  | .error error => failed hook shown error.report

/-- The report on a file with a path, where the disk refuses to replace it: the remarks have been
made by then. -/
def ofRefusal (hook shown path : Text) (remarks : List Remark) (refusal : Disk.Refusal) : Report :=
  withRemarks hook shown remarks (failed hook shown (refusal.message path))

/-- The report of a hook that stops. -/
def stopped (hook message : Text) : Report :=
  ⟨[], [hook ++ ": " ++ message], [Journal.entry hook [] "fatal" message], true⟩

/-- The report of a hook that cannot start. -/
def fatal (hook : Text) (error : HookError) : Report := stopped hook error.report

end Report

end GitHooks

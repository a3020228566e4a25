/-
**Every change is named.**

A hook writes a file only where it has read one, and then prints its path and fails.  So between
the files before and after a run there is an account: every file that differs is the one that some
argument leads to, and the path shown for that argument is among the lines printed; and if the run
has not failed, nothing differs and nothing is printed.  The account is kept file by file.  Since a
file that is written was there before, no path leads anywhere else for it, and the accounts of two
visits, one after the other, are put together into one.

All this holds on every disk.  A file that the disk refuses to replace stays as it is, and the hook
fails on it as it does on one that is replaced, so that the exit code says nothing about the disk.

The files are those that the hook is run on.  The journal is not one of them: what is noted in it is
part of the report.

Main definitions:

* `Check.ReadsFirst` — checks that give a file other content only when they have read it;
* `Check.OnlyReports` — checks that never give a file other content;
* `FileHook.Accounted` — every change is named, and what has not failed has changed nothing;
* `Hook.Answer.files`, `Hook.Answer.printed` — the files after an answer, and the lines printed.

Main results:

* `FileHook.visitOn_of_refused` — what becomes of a file that the disk refuses to replace;
* `FileHook.accounted_visitOn`, `FileHook.accounted_visitAllOn`, `FileHook.accounted_runOn` — the
  account of one file, of some files, and of a run;
* `FileHook.failing_runOn` — whether a run fails is the same on every disk;
* `Hook.readsFirst_of_fileHook?` — the hooks over files read first;
* `Hook.changes_named` — the account of a run with any arguments.
-/

import GitHooks.Main
import GitHooks.Proofs.FileTree.Writing
import GitHooks.Proofs.Hook.Requests
import GitHooks.Proofs.Hook.SingleFile

set_option relaxedAutoImplicit false
set_option autoImplicit false

namespace GitHooks

open Text

/-! ### Checks -/

namespace Check

/-- Whether a check finds nothing about a file that cannot be read. -/
def ReadsFirst (check : Check) : Prop :=
  ∀ path error judgement, check path (.error error) ≠ .ok judgement

/-- Whether a check never gives a file other content. -/
def OnlyReports (check : Check) : Prop :=
  ∀ path content remarks new, check path content ≠ .ok ⟨remarks, .modified new⟩

/-- A check that goes on with the content of a file has read it. -/
theorem readsFirst_bind (next : Text → Text → Except HookError Judgement) :
    ReadsFirst fun path content => content >>= next path := by
  intro path error judgement h
  exact nomatch h

/-- So has one that finds out about the language of the file before that. -/
theorem readsFirst_languageOf_bind (next : Text → Language → Text → Except HookError Judgement) :
    ReadsFirst fun path content => languageOf path >>= fun language =>
      content >>= next path language := by
  intro path error judgement
  change (languageOf path >>= fun language => .error error >>= next path language) ≠ .ok judgement
  cases languageOf path with
  | error fault => exact fun h => nomatch h
  | ok language => exact fun h => nomatch h

/-- A check that tells what it has found in a file gives it no other content. -/
theorem onlyReports_bind (found : Text → List Text) :
    OnlyReports fun _ content => content >>= fun text =>
      match found text with
      | [] => .ok ⟨[], .unchanged⟩
      | messages => .ok ⟨[], .violation messages⟩ := by
  intro path content remarks new
  cases content with
  | error error => exact fun h => nomatch h
  | ok text =>
      intro h
      simp only [bind, Except.bind] at h
      split at h
      · exact nomatch h
      · exact nomatch h

end Check

namespace FileHook

variable {site : Site} {tree tree' tree'' : FileTree} {path name : Text} {paths others : List Text}
  {report report' : Report} {check : Check} {hook : FileHook} {disk : Disk}
  {judgement : Except HookError Judgement} {remarks : List Remark} {refusal : Disk.Refusal}

/-! ### Refusals -/

/-- Only a change is refused. -/
theorem refused?_eq_some_iff :
    refused? disk tree path judgement = some (remarks, refusal)
      ↔ ∃ content, judgement = .ok ⟨remarks, .modified content⟩
        ∧ disk.refusal? tree path content = some refusal := by
  constructor
  · intro h
    cases judgement with
    | error error => exact nomatch h
    | ok judgement =>
        obtain ⟨found, verdict⟩ := judgement
        cases verdict with
        | unchanged => exact nomatch h
        | violation messages => exact nomatch h
        | modified content =>
            obtain ⟨_, hrefusal, hpair⟩ := Option.map_eq_some_iff.1 h
            obtain ⟨rfl, rfl⟩ := Prod.mk.inj hpair
            exact ⟨content, rfl, hrefusal⟩
  · rintro ⟨content, rfl, hrefusal⟩
    rw [refused?, hrefusal, Option.map_some]

/-- **A file that the disk refuses to replace** stays as it is, and the report tells it. -/
theorem visitOn_of_refused
    (h : refused? disk tree path (check path (contentOf tree site.directory path))
      = some (remarks, refusal)) :
    visitOn disk name site check tree path
      = (tree, .ofRefusal name (Path.shown site.path path) path remarks refusal) := by
  rw [visitOn, h]

/-- Where nothing is refused, the disk is of no account. -/
theorem visitOn_of_not_refused
    (h : refused? disk tree path (check path (contentOf tree site.directory path)) = none) :
    visitOn disk name site check tree path = visit name site check tree path := by
  rw [visitOn, h, visit_eq]

/-! ### Accounts -/

/-- Every file that differs between two trees is named in a report by the shown form of a path that
leads to it, and a report that has not failed names none. -/
structure Accounted (site : Site) (paths : List Text) (tree tree' : FileTree) (report : Report) :
    Prop where
  sameShape : FileTree.SameShape tree' tree
  named : ∀ location, tree'.fileAt? location ≠ tree.fileAt? location →
    ∃ path ∈ paths, tree.locate site.directory path = .ok location
      ∧ Path.shown site.path path ∈ report.output
  quiet : report.failing = false → tree' = tree ∧ report.output = []

/-- Where nothing differs, there is nothing to name. -/
theorem accounted_self (hquiet : report.failing = false → report.output = []) :
    Accounted site paths tree tree report where
  sameShape := FileTree.SameShape.refl tree
  named _ hdiffers := absurd rfl hdiffers
  quiet hfailing := ⟨rfl, hquiet hfailing⟩

theorem Accounted.mono (h : Accounted site paths tree tree' report) (hsub : paths ⊆ others) :
    Accounted site others tree tree' report where
  sameShape := h.sameShape
  named location hdiffers := by
    obtain ⟨path, hpath, hnamed⟩ := h.named location hdiffers
    exact ⟨path, hsub hpath, hnamed⟩
  quiet := h.quiet

/-- **Two accounts, one after the other, are one.** -/
theorem Accounted.append (h : Accounted site paths tree tree' report)
    (h' : Accounted site others tree' tree'' report') :
    Accounted site (paths ++ others) tree tree'' (report ++ report') where
  sameShape := h'.sameShape.trans h.sameShape
  named := by
    intro location hdiffers
    by_cases hfirst : tree'.fileAt? location = tree.fileAt? location
    · rw [← hfirst] at hdiffers
      obtain ⟨path, hpath, hlocate, hshown⟩ := h'.named location hdiffers
      -- the path leads to the same place as before the first changes
      rw [h.sameShape.locate_eq] at hlocate
      exact ⟨path, List.mem_append_right paths hpath, hlocate,
        List.mem_append_right report.output hshown⟩
    · obtain ⟨path, hpath, hlocate, hshown⟩ := h.named location hfirst
      exact ⟨path, List.mem_append_left others hpath, hlocate,
        List.mem_append_left report'.output hshown⟩
  quiet := by
    intro hfailing
    rw [Report.failing_append, Bool.or_eq_false_iff] at hfailing
    obtain ⟨rfl, hnone⟩ := h.quiet hfailing.1
    obtain ⟨rfl, hnone'⟩ := h'.quiet hfailing.2
    exact ⟨rfl, by rw [Report.output_append, hnone, hnone', List.append_nil]⟩

/-! ### Visits -/

/-- A file about which a check that reads first finds anything can be read. -/
theorem exists_read (hreads : check.ReadsFirst) {found : Judgement}
    (h : check path (contentOf tree site.directory path) = .ok found) :
    ∃ content, tree.read site.directory path = .ok content := by
  cases hread : tree.read site.directory path with
  | ok content => exact ⟨content, rfl⟩
  | error fault =>
      rw [contentOf, hread] at h
      exact absurd h (hreads _ _ _)

/-- A file that has been read and is given other content is the only one that changes. -/
theorem accounted_write {content : Text} (hread : tree.read site.directory path = .ok content)
    (hshown : Path.shown site.path path ∈ report.output) (hfailing : report.failing = true)
    (new : Text) :
    Accounted site [path] tree (tree.write site.directory path new) report := by
  obtain ⟨location, bytes, hlocate, hfile, -⟩ := FileTree.exists_of_read hread
  have hwrite : tree.write site.directory path new = tree.writeAt location (encode new) := by
    rw [FileTree.write, hlocate]
  rw [hwrite]
  refine ⟨FileTree.sameShape_writeAt (Option.isSome_of_eq_some hfile) _, ?_, ?_⟩
  · intro other hdiffers
    have hother : location = other := Decidable.byContradiction fun hne =>
      hdiffers (FileTree.fileAt?_writeAt_of_ne _ hne)
    exact ⟨path, List.mem_singleton_self path, hother ▸ hlocate, hshown⟩
  · intro hquiet
    rw [hfailing] at hquiet
    exact Bool.noConfusion hquiet

/-- The account of one file on a disk that refuses nothing. -/
theorem accounted_visit (hreads : check.ReadsFirst) (name : Text) (site : Site) (tree : FileTree)
    (path : Text) :
    Accounted site [path] tree (visit name site check tree path).1
      (visit name site check tree path).2 := by
  rw [visit_eq]
  cases hjudgement : check path (contentOf tree site.directory path) with
  | error error => exact accounted_self fun _ => rfl
  | ok judgement =>
      obtain ⟨remarks, verdict⟩ := judgement
      cases verdict with
      | unchanged =>
          refine accounted_self fun _ => ?_
          rw [Report.output_ofJudgement]
          rfl
      | violation messages =>
          refine accounted_self fun _ => ?_
          rw [Report.output_ofJudgement]
          rfl
      | modified new =>
          obtain ⟨content, hread⟩ := exists_read hreads hjudgement
          refine accounted_write hread ?_ ?_ new
          · rw [Report.output_ofJudgement]
            exact List.mem_singleton_self _
          · rw [Report.failing_ofJudgement]
            rfl

/-- **The account of one file.** -/
theorem accounted_visitOn (hreads : check.ReadsFirst) (disk : Disk) (name : Text) (site : Site)
    (tree : FileTree) (path : Text) :
    Accounted site [path] tree (visitOn disk name site check tree path).1
      (visitOn disk name site check tree path).2 := by
  cases hrefused : refused? disk tree path (check path (contentOf tree site.directory path)) with
  | some refused =>
      rw [visitOn_of_refused hrefused]
      exact accounted_self fun _ => Report.output_ofRefusal _ _ _
  | none =>
      rw [visitOn_of_not_refused hrefused]
      exact accounted_visit hreads name site tree path

/-- **The account of some files**, visited in order. -/
theorem accounted_visitAllOn (hreads : check.ReadsFirst) (disk : Disk) (name : Text) (site : Site)
    (tree : FileTree) (paths : List Text) :
    Accounted site paths tree (visitAllOn disk name site check tree paths).1
      (visitAllOn disk name site check tree paths).2 := by
  induction paths generalizing tree with
  | nil => exact accounted_self fun _ => rfl
  | cons path rest ih => exact (accounted_visitOn hreads disk name site tree path).append (ih _)

/-- A check that only reports leaves a file as it is. -/
theorem visitOn_of_onlyReports (hreports : check.OnlyReports) (disk : Disk) (name : Text)
    (site : Site) (tree : FileTree) (path : Text) :
    (visitOn disk name site check tree path).1 = tree := by
  cases hrefused : refused? disk tree path (check path (contentOf tree site.directory path)) with
  | some refused => rw [visitOn_of_refused hrefused]
  | none =>
      rw [visitOn_of_not_refused hrefused, visit_fst]
      cases hjudgement : check path (contentOf tree site.directory path) with
      | error error => rfl
      | ok judgement =>
          obtain ⟨remarks, verdict⟩ := judgement
          cases verdict with
          | unchanged => rfl
          | violation messages => rfl
          | modified new => exact absurd hjudgement (hreports _ _ _ _)

theorem visitAllOn_of_onlyReports (hreports : check.OnlyReports) (disk : Disk) (name : Text)
    (site : Site) (tree : FileTree) (paths : List Text) :
    (visitAllOn disk name site check tree paths).1 = tree := by
  induction paths with
  | nil => rfl
  | cons path rest ih =>
      rw [visitAllOn]
      simp only [visitOn_of_onlyReports hreports, ih]

/-! ### Runs -/

/-- What a run does: nothing where it cannot start, and else the visits. -/
theorem runOn_cases (hook : FileHook) (site : Site) (tree : FileTree) (paths : List Text) :
    (∃ error, ∀ disk, hook.runOn disk site tree paths = (tree, .fatal hook.name error))
      ∨ (∀ disk, hook.runOn disk site tree paths = (tree, .empty))
      ∨ ∃ check, hook.prepare site tree = .ok check ∧ ∀ disk, hook.runOn disk site tree paths
          = visitAllOn disk hook.name site check tree (paths.filter hook.concerns) := by
  simp only [runOn, resolveFiles]
  cases paths.find? fun path => !tree.isFile site.directory path with
  | some path => exact .inl ⟨_, fun _ => rfl⟩
  | none =>
      cases paths with
      | nil => exact .inr (.inl fun _ => rfl)
      | cons path rest =>
          cases hprepare : hook.prepare site tree with
          | error error => exact .inl ⟨error, fun _ => rfl⟩
          | ok check => exact .inr (.inr ⟨check, rfl, fun _ => rfl⟩)

/-- **The account of a run.** -/
theorem accounted_runOn (hreads : ∀ check, hook.prepare site tree = .ok check → check.ReadsFirst)
    (disk : Disk) (paths : List Text) :
    Accounted site paths tree (hook.runOn disk site tree paths).1
      (hook.runOn disk site tree paths).2 := by
  rcases runOn_cases hook site tree paths with ⟨error, hrun⟩ | hrun | ⟨check, hprepare, hrun⟩
  · rw [hrun]
    exact accounted_self fun _ => rfl
  · rw [hrun]
    exact accounted_self fun _ => rfl
  · rw [hrun]
    exact (accounted_visitAllOn (hreads check hprepare) _ _ _ _ _).mono
      (List.filter_sublist.subset)

/-- A hook whose checks only report leaves all files as they are. -/
theorem runOn_of_onlyReports
    (hreports : ∀ check, hook.prepare site tree = .ok check → check.OnlyReports)
    (disk : Disk) (paths : List Text) : (hook.runOn disk site tree paths).1 = tree := by
  rcases runOn_cases hook site tree paths with ⟨error, hrun⟩ | hrun | ⟨check, hprepare, hrun⟩
  · rw [hrun]
  · rw [hrun]
  · rw [hrun, visitAllOn_of_onlyReports (hreports check hprepare)]

/-! ### Exit codes -/

/-- A hook fails on a file that is to be replaced, whether or not the disk refuses that. -/
theorem failing_visitOn (disk : Disk) (name : Text) (site : Site) (check : Check)
    (tree : FileTree) (path : Text) :
    (visitOn disk name site check tree path).2.failing
      = (visit name site check tree path).2.failing := by
  cases hrefused : refused? disk tree path (check path (contentOf tree site.directory path)) with
  | none => rw [visitOn_of_not_refused hrefused]
  | some refused =>
      obtain ⟨content, hjudgement, -⟩ := refused?_eq_some_iff.1 hrefused
      rw [visitOn_of_refused hrefused, Report.failing_ofRefusal, visit_eq, hjudgement,
        Report.failing_ofJudgement]
      rfl

theorem failing_visitAllOn (hreads : check.ReadsFirst) (disk : Disk) (name : Text) (site : Site)
    (tree : FileTree) (paths : List Text) :
    (visitAllOn disk name site check tree paths).2.failing
      = (visitAll name site check tree paths).2.failing := by
  induction paths generalizing tree with
  | nil => rfl
  | cons path rest ih =>
      have hfirst := failing_visitOn disk name site check tree path
      rw [visitAll_cons, visitAllOn]
      simp only [Report.failing_append, hfirst]
      cases hfailing : (visit name site check tree path).2.failing with
      | true => rfl
      | false =>
          -- nothing has been changed yet, so that the rest begins with the same files
          have hvisitOn := (accounted_visitOn hreads disk name site tree path).quiet
            (hfirst.trans hfailing)
          have hvisit := (accounted_visit hreads name site tree path).quiet hfailing
          rw [hvisitOn.1, hvisit.1, ih]

/-- **Whether a run fails is the same on every disk.** -/
theorem failing_runOn (hreads : ∀ check, hook.prepare site tree = .ok check → check.ReadsFirst)
    (disk : Disk) (paths : List Text) :
    (hook.runOn disk site tree paths).2.failing = (hook.run site tree paths).2.failing := by
  rcases runOn_cases hook site tree paths with ⟨error, hrun⟩ | hrun | ⟨check, hprepare, hrun⟩
  · rw [run, hrun, hrun]
  · rw [run, hrun, hrun]
  · rw [run, hrun, hrun]
    exact failing_visitAllOn (hreads check hprepare) disk _ _ _ _

end FileHook

/-! ### The checks of the hooks -/

theorem AddCopyright.readsFirst_judge (settings : Settings.Resolved) (year : Int) :
    (judge settings year).ReadsFirst :=
  Check.readsFirst_languageOf_bind _

theorem AddCopyright.prepare_eq (given : CommandLine.Given) (site : Site) (tree : FileTree) :
    (hook given).prepare site tree
      = (settings given site tree).map fun settings => judge settings site.year := rfl

theorem AddCopyright.readsFirst_of_prepare {given : CommandLine.Given} {site : Site}
    {tree : FileTree} {check : Check} (h : (hook given).prepare site tree = .ok check) :
    check.ReadsFirst := by
  rw [prepare_eq] at h
  cases hsettings : settings given site tree with
  | error error =>
      rw [hsettings] at h
      exact nomatch h
  | ok settings =>
      rw [hsettings] at h
      rw [← Except.ok.inj h]
      exact readsFirst_judge settings site.year

theorem UpdateCopyright.readsFirst_judge (site : Site) : (judge site).ReadsFirst :=
  Check.readsFirst_languageOf_bind _

theorem UpdateCopyright.prepare_eq (site : Site) (tree : FileTree) :
    hook.prepare site tree = match Git.workingTree site.git site.path with
      | .ok _ => .ok (judge site)
      | .error _ => .error (.notARepository site.path) := rfl

theorem UpdateCopyright.readsFirst_of_prepare {site : Site} {tree : FileTree} {check : Check}
    (h : hook.prepare site tree = .ok check) : check.ReadsFirst := by
  rw [prepare_eq] at h
  cases hroot : Git.workingTree site.git site.path with
  | error error =>
      rw [hroot] at h
      exact nomatch h
  | ok root =>
      rw [hroot] at h
      rw [← Except.ok.inj h]
      exact readsFirst_judge site

theorem SortFileContents.readsFirst_judge (unique : Bool) : (judge unique).ReadsFirst :=
  Check.readsFirst_bind _

theorem Americanise.readsFirst_correct : Check.ReadsFirst correct :=
  Check.readsFirst_bind _

theorem Americanise.readsFirst_report : Check.ReadsFirst report :=
  Check.readsFirst_bind _

theorem Americanise.onlyReports_report : Check.OnlyReports report :=
  Check.onlyReports_bind fun text => messages (Buffer.parse text).lines

theorem RefuseTestImports.readsFirst_judge : Check.ReadsFirst judge :=
  Check.readsFirst_bind _

theorem RefuseTestImports.onlyReports_judge : Check.OnlyReports judge :=
  Check.onlyReports_bind fun text =>
    (TestImport.inLines (Buffer.parse text).lines).map TestImport.Finding.message

namespace Hook

variable {hook : Hook} {given : CommandLine.Given} {site : Site} {tree : FileTree}
  {arguments : List Text} {fileHook : FileHook} {check : Check}

/-- **The hooks over files read first.** -/
theorem readsFirst_of_fileHook? (hhook : hook.fileHook? given = some fileHook)
    (hprepare : fileHook.prepare site tree = .ok check) : check.ReadsFirst := by
  cases hook with
  | addCopyright =>
      obtain rfl := Option.some.inj hhook
      exact AddCopyright.readsFirst_of_prepare hprepare
  | updateCopyright =>
      obtain rfl := Option.some.inj hhook
      exact UpdateCopyright.readsFirst_of_prepare hprepare
  | sortFileContents =>
      obtain rfl := Option.some.inj hhook
      obtain rfl := Except.ok.inj hprepare
      exact SortFileContents.readsFirst_judge _
  | americanise =>
      obtain rfl := Option.some.inj hhook
      obtain rfl := Except.ok.inj hprepare
      cases given.has "fix" with
      | true => exact Americanise.readsFirst_correct
      | false => exact Americanise.readsFirst_report
  | refuseTestImports =>
      obtain rfl := Option.some.inj hhook
      obtain rfl := Except.ok.inj hprepare
      exact RefuseTestImports.readsFirst_judge
  | addIssue => exact absurd hhook (by simp [fileHook?])

/-! ### Answers -/

/-- The files after an answer, where `tree` are those before. -/
def Answer.files (tree : FileTree) : Answer → FileTree
  | .finished after _ => after
  | _ => tree

/-- The lines that a hook prints with an answer. -/
def Answer.printed (hook : Hook) : Answer → List Text
  | .help => [Command.usage hook]
  | .version => [hook.versionLine]
  | .misuse => []
  | .finished _ report => report.output

/-- A command line that is understood is carried out. -/
theorem runOn_of_parse (disk : Disk)
    (hgiven : CommandLine.parse hook.grammar arguments = .ok given) :
    hook.runOn disk site tree arguments
      = .finished (hook.performOn disk given site tree).1
        (hook.performOn disk given site tree).2 := by
  rw [runOn, hgiven]

theorem run_of_parse (hgiven : CommandLine.parse hook.grammar arguments = .ok given) :
    hook.run site tree arguments
      = .finished (hook.perform given site tree).1 (hook.perform given site tree).2 :=
  runOn_of_parse .obliging hgiven

/-- A command line that is not understood is a request or a misuse. -/
theorem runOn_of_stop {stop : CommandLine.Stop} (disk : Disk)
    (hstop : CommandLine.parse hook.grammar arguments = .error stop)
    (hhelp : hook.run site tree arguments ≠ .help)
    (hversion : hook.run site tree arguments ≠ .version) :
    hook.runOn disk site tree arguments = .misuse := by
  rw [run, runOn, hstop] at hhelp hversion
  rw [runOn, hstop]
  cases stop with
  | help => exact absurd rfl hhelp
  | version => exact absurd rfl hversion
  | misuse => rfl

/-- Every hook but the one for messages is a hook over files. -/
theorem exists_fileHook (hhook : hook ≠ .addIssue) (given : CommandLine.Given) (site : Site)
    (tree : FileTree) : ∃ fileHook, hook.fileHook? given = some fileHook
      ∧ ∀ disk, hook.performOn disk given site tree
        = fileHook.runOn disk site tree given.operands := by
  have hsome : ∃ fileHook, hook.fileHook? given = some fileHook := by
    cases hook with
    | addIssue => exact absurd rfl hhook
    | _ => exact ⟨_, rfl⟩
  obtain ⟨fileHook, hfileHook⟩ := hsome
  refine ⟨fileHook, hfileHook, fun disk => ?_⟩
  rw [performOn, hfileHook]

/-- Test imports are reported only, and so are spellings that are not to be corrected. -/
theorem onlyReports_of_fileHook? (hhook : hook.fileHook? given = some fileHook)
    (hreports : hook = .refuseTestImports ∨ hook = .americanise ∧ given.has "fix" = false)
    (hprepare : fileHook.prepare site tree = .ok check) : check.OnlyReports := by
  rcases hreports with rfl | ⟨rfl, hfix⟩
  · obtain rfl := Option.some.inj hhook
    obtain rfl := Except.ok.inj hprepare
    exact RefuseTestImports.onlyReports_judge
  · obtain rfl := Option.some.inj hhook
    obtain rfl := Except.ok.inj hprepare
    rw [hfix]
    exact Americanise.onlyReports_report

/-- **Every change is named.**  When a hook over files is run with arguments that ask neither for
help nor for the version, on any disk, every file that differs afterwards is the one that an
argument leads to, and the path shown for this argument is printed; so files that no argument leads
to are as they were.  If the exit code is zero, all files are as they were and nothing is printed;
and the exit code is what it would be if the disk refused nothing.  The hook that refuses test
imports changes no file, and neither does the hook for spellings unless it is to correct them. -/
theorem changes_named (hhook : hook ≠ .addIssue) (hhelp : hook.run site tree arguments ≠ .help)
    (hversion : hook.run site tree arguments ≠ .version) (disk : Disk) :
    (∀ location, ((hook.runOn disk site tree arguments).files tree).fileAt? location
          ≠ tree.fileAt? location →
        ∃ given, CommandLine.parse hook.grammar arguments = .ok given
          ∧ ∃ path ∈ given.operands, tree.locate site.directory path = .ok location
            ∧ Path.shown site.path path ∈ (hook.runOn disk site tree arguments).printed hook)
      ∧ (∀ location, (∀ given, CommandLine.parse hook.grammar arguments = .ok given →
            ∀ path ∈ given.operands, tree.locate site.directory path ≠ .ok location) →
          ((hook.runOn disk site tree arguments).files tree).fileAt? location
            = tree.fileAt? location)
      ∧ ((hook.runOn disk site tree arguments).exitCode = 0 →
          (hook.runOn disk site tree arguments).files tree = tree
            ∧ (hook.runOn disk site tree arguments).printed hook = [])
      ∧ (hook.runOn disk site tree arguments).exitCode = (hook.run site tree arguments).exitCode
      ∧ (hook = .refuseTestImports → (hook.runOn disk site tree arguments).files tree = tree)
      ∧ (hook = .americanise → (∀ given, CommandLine.parse hook.grammar arguments = .ok given →
            given.has "fix" = false) →
          (hook.runOn disk site tree arguments).files tree = tree) := by
  cases hparse : CommandLine.parse hook.grammar arguments with
  | error stop =>
      rw [run, runOn_of_stop disk hparse hhelp hversion,
        runOn_of_stop .obliging hparse hhelp hversion]
      exact ⟨fun _ hdiffers => absurd rfl hdiffers, fun _ _ => rfl,
        fun hexit => absurd hexit (by decide), rfl, fun _ => rfl, fun _ _ => rfl⟩
  | ok given =>
      obtain ⟨fileHook, hfileHook, hperform⟩ := exists_fileHook hhook given site tree
      have hreads : ∀ check, fileHook.prepare site tree = .ok check → check.ReadsFirst :=
        fun check hprepare => readsFirst_of_fileHook? hfileHook hprepare
      have haccount := FileHook.accounted_runOn hreads disk given.operands
      have hreports : hook = .refuseTestImports ∨ hook = .americanise ∧ given.has "fix" = false →
          (fileHook.runOn disk site tree given.operands).1 = tree := fun hcase =>
        FileHook.runOn_of_onlyReports
          (fun check hprepare => onlyReports_of_fileHook? hfileHook hcase hprepare) disk
          given.operands
      rw [run_of_parse hparse, runOn_of_parse disk hparse, perform, hperform, hperform]
      refine ⟨?_, ?_, ?_, ?_, fun hcase => hreports (.inl hcase),
        fun hcase hfix => hreports (.inr ⟨hcase, hfix given rfl⟩)⟩
      · intro location hdiffers
        exact ⟨given, rfl, haccount.named location hdiffers⟩
      · intro location hdenoted
        refine Decidable.byContradiction fun hdiffers => ?_
        obtain ⟨path, hpath, hlocate, -⟩ := haccount.named location hdiffers
        exact hdenoted given rfl path hpath hlocate
      · intro hexit
        refine haccount.quiet ?_
        simpa [Answer.exitCode] using hexit
      · rw [Answer.exitCode, Answer.exitCode, FileHook.failing_runOn hreads disk given.operands]
        rfl

/-- Two files, `list` and `other`, in the root directory. -/
def twoFiles : FileTree :=
  ⟨[(["list"], .file (encode "b\na\n")), (["other"], .file (encode "d\nc\n"))]⟩

/-- When `list` is sorted, `other` stays as it is. -/
theorem changes_named_list :
    (∀ argument ∈ (["list"] : List Text), ∀ stop, ¬ CommandLine.Asks argument stop)
      ∧ ((sortFileContents.run ⟨[], none, 2024, false⟩ twoFiles ["list"]).files twoFiles).fileAt?
          ["other"] = some (encode "d\nc\n") := by
  have hasks : ∀ argument ∈ (["list"] : List Text), ∀ stop, ¬ CommandLine.Asks argument stop := by
    intro argument hargument stop
    obtain rfl := List.mem_singleton.1 hargument
    exact fun hask => nomatch hask
  have hlocate : twoFiles.locate [] "list" = .ok ["list"] := rfl
  have hgiven : CommandLine.parse sortFileContents.grammar ["list"] = .ok ⟨[], ["list"]⟩ := rfl
  obtain ⟨-, hframe, -⟩ := @changes_named sortFileContents ⟨[], none, 2024, false⟩ twoFiles
    ["list"] (by decide) (run_ne_help fun argument hargument => hasks argument hargument .help)
    (run_ne_version fun argument hargument => hasks argument hargument .version) .obliging
  refine ⟨hasks, hframe ["other"] ?_⟩
  rintro given hparse path hpath hother
  obtain rfl := Except.ok.inj (hgiven.symm.trans hparse)
  obtain rfl := List.mem_singleton.1 hpath
  exact absurd (Except.ok.inj (hlocate.symm.trans hother)) (by decide)

end Hook

end GitHooks

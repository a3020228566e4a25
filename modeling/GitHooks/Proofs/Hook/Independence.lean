/-
**Files are judged on their own.**

A run writes while it goes on reading, so what it finds in a file could depend on the files before.
It does not.  What a hook makes of a file is decided by the bytes at the place the path leads to,
and a visit changes the bytes at one place only, without moving what other paths lead to.  So when
no two paths lead to the same place, every visit of a run finds what it would find alone: the report
is put together from those of the single visits, and each file is left as its own visit leaves it.
Two visits can change places, and with them any two orders of a run.

What a hook needs to know is found out once, before anything is written, even where a file that says
it is among those that the run changes.

Main definitions:

* `FileHook.AgreeAt` — trees that a visit of one path cannot tell apart;
* `FileHook.Apart` — paths that lead to different places.

Main results:

* `FileHook.visit_congr` — what a visit does where nothing changes for it;
* `FileHook.visitAll_apart` — the visits of a run are those of the single files;
* `FileHook.visit_comm`, `FileHook.visitAll_perm` — the order of the visits does not show;
* `FileHook.run_apart`, `FileHook.run_perm` — a run over paths that lead to different places, and
  the same paths in another order;
* `Hook.files_independent` — a run over some files and the runs over each of them.
-/

import GitHooks.Proofs.Hook.Account
import Mathlib.Data.List.Basic
import Mathlib.Data.List.Pairwise

set_option relaxedAutoImplicit false
set_option autoImplicit false

namespace GitHooks

open Text

namespace Report

/-! ### Reports one after the other -/

/-- Reports, one after the other. -/
def concat (reports : List Report) : Report := reports.foldr append empty

theorem concat_cons (report : Report) (rest : List Report) :
    concat (report :: rest) = report ++ concat rest := rfl

theorem output_concat (reports : List Report) :
    (concat reports).output = reports.flatMap output := by
  induction reports with
  | nil => rfl
  | cons report rest ih => rw [concat_cons, output_append, ih, List.flatMap_cons]

theorem failing_concat (reports : List Report) :
    (concat reports).failing = reports.any failing := by
  induction reports with
  | nil => rfl
  | cons report rest ih => rw [concat_cons, failing_append, ih, List.any_cons]

end Report

namespace FileHook

variable {site : Site} {tree other : FileTree} {path second name : Text} {paths others : List Text}
  {location : Location} {check : Check} {hook : FileHook}

/-! ### What a visit depends on -/

/-- Trees with the same places, and with the same bytes where a path leads to. -/
structure AgreeAt (site : Site) (path : Text) (tree other : FileTree) : Prop where
  sameShape : FileTree.SameShape other tree
  fileAt?_eq : ∀ location, tree.locate site.directory path = .ok location →
    other.fileAt? location = tree.fileAt? location

theorem contentOf_congr (h : AgreeAt site path tree other) :
    contentOf other site.directory path = contentOf tree site.directory path := by
  rw [contentOf, contentOf, FileTree.read, FileTree.read, h.sameShape.locate_eq]
  cases hlocate : tree.locate site.directory path with
  | error fault => rfl
  | ok location => simp only [h.fileAt?_eq location hlocate]

/-- What is judged on a file that is as it was is the same. -/
theorem report_visit_congr (h : AgreeAt site path tree other) (name : Text) (check : Check) :
    (visit name site check other path).2 = (visit name site check tree path).2 := by
  simp only [visit_eq, contentOf_congr h]

/-- **A visit leaves a file that is as it was in the same state.** -/
theorem visit_congr (h : AgreeAt site path tree other) (name : Text) (check : Check)
    (hlocate : tree.locate site.directory path = .ok location) :
    (visit name site check other path).1.fileAt? location
      = (visit name site check tree path).1.fileAt? location := by
  have hother := (h.sameShape.locate_eq site.directory path).trans hlocate
  simp only [visit_eq, contentOf_congr h]
  cases check path (contentOf tree site.directory path) with
  | error error => exact h.fileAt?_eq location hlocate
  | ok judgement =>
      obtain ⟨remarks, verdict⟩ := judgement
      cases verdict with
      | unchanged => exact h.fileAt?_eq location hlocate
      | violation messages => exact h.fileAt?_eq location hlocate
      | modified new =>
          simp only [carryOut, FileTree.write, hlocate, hother, FileTree.fileAt?_writeAt]

/-! ### Paths apart -/

/-- Paths that do not lead to the same place. -/
def Apart (site : Site) (tree : FileTree) (path second : Text) : Prop :=
  tree.locate site.directory path ≠ tree.locate site.directory second

theorem Apart.symm (h : Apart site tree path second) : Apart site tree second path := Ne.symm h

instance : Std.Symm (Apart site tree) := ⟨fun _ _ => Apart.symm⟩

theorem Apart.of_sameShape (hshape : FileTree.SameShape other tree)
    (h : Apart site tree path second) : Apart site other path second := by
  rwa [Apart, hshape.locate_eq, hshape.locate_eq]

/-- A visit changes nothing for a path that leads elsewhere. -/
theorem agreeAt_visit (hreads : check.ReadsFirst) (name : Text)
    (h : Apart site tree path second) :
    AgreeAt site second tree (visit name site check tree path).1 where
  sameShape := (accounted_visit hreads name site tree path).sameShape
  fileAt?_eq location hlocate := Decidable.byContradiction fun hdiffers => by
    obtain ⟨visited, hvisited, hpath, -⟩ :=
      (accounted_visit hreads name site tree path).named location hdiffers
    obtain rfl := List.mem_singleton.1 hvisited
    exact h (hpath.trans hlocate.symm)

/-- Visits change nothing for a path that leads elsewhere than they do. -/
theorem fileAt?_visitAll (hreads : check.ReadsFirst) (name : Text)
    (hapart : ∀ other ∈ paths, Apart site tree path other)
    (hlocate : tree.locate site.directory path = .ok location) :
    (visitAll name site check tree paths).1.fileAt? location = tree.fileAt? location :=
  Decidable.byContradiction fun hdiffers => by
    obtain ⟨visited, hvisited, hpath, -⟩ :=
      (accounted_visitAllOn hreads .obliging name site tree paths).named location hdiffers
    exact hapart visited hvisited (hlocate.trans hpath.symm)

/-- **The visits of a run are those of the single files**, where no two paths lead to the same
place. -/
theorem visitAll_apart (hreads : check.ReadsFirst) (name : Text) (tree : FileTree)
    (hapart : paths.Pairwise (Apart site tree)) :
    (∀ path ∈ paths, ∀ location, tree.locate site.directory path = .ok location →
        (visitAll name site check tree paths).1.fileAt? location
          = (visit name site check tree path).1.fileAt? location)
      ∧ (visitAll name site check tree paths).2
        = .concat (paths.map fun path => (visit name site check tree path).2) := by
  induction paths generalizing tree with
  | nil => exact ⟨fun _ hpath => (nomatch hpath), rfl⟩
  | cons first rest ih =>
      obtain ⟨hfirst, hrest⟩ := List.pairwise_cons.1 hapart
      -- for the paths behind it, the visit of the first one has not happened
      have hagree : ∀ path ∈ rest, AgreeAt site path tree (visit name site check tree first).1 :=
        fun path hpath => agreeAt_visit hreads name (hfirst path hpath)
      have hshape := (accounted_visit hreads name site tree first).sameShape
      obtain ⟨hfiles, hreport⟩ :=
        ih (visit name site check tree first).1 (hrest.imp (Apart.of_sameShape hshape))
      constructor
      · intro path hpath location hlocate
        have hlocate' := (hshape.locate_eq site.directory path).trans hlocate
        rcases List.mem_cons.1 hpath with rfl | hpath
        · exact fileAt?_visitAll hreads name
            (fun other hother => (hfirst other hother).of_sameShape hshape) hlocate'
        · exact (hfiles path hpath location hlocate').trans
            (visit_congr (hagree path hpath) name check hlocate)
      · change (visit name site check tree first).2
          ++ (visitAll name site check (visit name site check tree first).1 rest).2 = _
        rw [hreport, List.map_cons, Report.concat_cons, List.map_congr_left fun path hpath =>
          report_visit_congr (hagree path hpath) name check]

/-! ### The order of visits -/

/-- A file that is given other content is there. -/
theorem exists_of_modified (hreads : check.ReadsFirst) {remarks : List Remark} {new : Text}
    (h : check path (contentOf tree site.directory path) = .ok ⟨remarks, .modified new⟩) :
    ∃ location, tree.locate site.directory path = .ok location
      ∧ (tree.fileAt? location).isSome = true := by
  obtain ⟨content, hread⟩ := exists_read hreads h
  obtain ⟨location, bytes, hlocate, hfile, -⟩ := FileTree.exists_of_read hread
  exact ⟨location, hlocate, Option.isSome_of_eq_some hfile⟩

/-- **Two visits can change places**, where they lead to different ones. -/
theorem visit_comm (hreads : check.ReadsFirst) (name : Text) (h : Apart site tree path second) :
    (visit name site check (visit name site check tree path).1 second).1
      = (visit name site check (visit name site check tree second).1 path).1 := by
  have hsecond := contentOf_congr (agreeAt_visit hreads name h)
  have hpath := contentOf_congr (agreeAt_visit hreads name h.symm)
  rw [visit_fst name site check (visit name site check tree path).1 second,
    visit_fst name site check (visit name site check tree second).1 path, hsecond, hpath,
    visit_fst name site check tree path, visit_fst name site check tree second]
  -- only where both files are given other content are there two writes
  match hfirst : check path (contentOf tree site.directory path),
      hother : check second (contentOf tree site.directory second) with
  | .ok ⟨_, .modified x⟩, .ok ⟨_, .modified y⟩ =>
      obtain ⟨location, hlocate, hthere⟩ := exists_of_modified hreads hfirst
      obtain ⟨location', hlocate', hthere'⟩ := exists_of_modified hreads hother
      have hne : location ≠ location' := fun heq => h (hlocate.trans (heq ▸ hlocate'.symm))
      exact FileTree.write_comm hlocate hlocate' hne hthere hthere' x y
  | .ok ⟨_, .modified _⟩, .ok ⟨_, .unchanged⟩ => rfl
  | .ok ⟨_, .modified _⟩, .ok ⟨_, .violation _⟩ => rfl
  | .ok ⟨_, .modified _⟩, .error _ => rfl
  | .ok ⟨_, .unchanged⟩, _ => rfl
  | .ok ⟨_, .violation _⟩, _ => rfl
  | .error _, _ => rfl

/-- **Visits in another order leave the same files.** -/
theorem visitAll_perm (hreads : check.ReadsFirst) (name : Text) (hperm : paths.Perm others)
    (tree : FileTree) (hapart : paths.Pairwise (Apart site tree)) :
    (visitAll name site check tree paths).1 = (visitAll name site check tree others).1 := by
  induction hperm generalizing tree with
  | nil => rfl
  | cons first _ ih =>
      have hshape := (accounted_visit hreads name site tree first).sameShape
      exact ih _ ((List.pairwise_cons.1 hapart).2.imp (Apart.of_sameShape hshape))
  | swap first next rest =>
      have hne : Apart site tree next first :=
        (List.pairwise_cons.1 hapart).1 first List.mem_cons_self
      change (visitAll name site check (visit name site check
          (visit name site check tree next).1 first).1 rest).1 = _
      rw [visit_comm hreads name hne]
      rfl
  | trans hfirst _ ih ih' =>
      exact (ih tree hapart).trans
        (ih' tree ((hfirst.pairwise_iff fun h => Apart.symm h).1 hapart))

/-! ### Runs -/

/-- What a run over files that are there does, once it is known what the hook does with them. -/
theorem run_of_prepare (hfiles : ∀ path ∈ paths, tree.isFile site.directory path = true)
    (hprepare : hook.prepare site tree = .ok check) :
    hook.run site tree paths
      = visitAll hook.name site check tree (paths.filter hook.concerns) := by
  cases paths with
  | nil => rfl
  | cons path rest => rw [run_of_files (List.cons_ne_nil _ _) hfiles, hprepare]

/-- Where that cannot be found out, nothing is done. -/
theorem run_of_fatal {error : HookError}
    (hfiles : ∀ path ∈ paths, tree.isFile site.directory path = true) (hne : paths ≠ [])
    (hprepare : hook.prepare site tree = .error error) :
    hook.run site tree paths = (tree, .fatal hook.name error) := by
  rw [run_of_files hne hfiles, hprepare]

/-- What a run over a single file comes to among others: a visit, or nothing where the hook does not
look at the file. -/
theorem run_alone (hfile : tree.isFile site.directory path = true)
    (hprepare : hook.prepare site tree = .ok check) :
    hook.run site tree [path] = if hook.concerns path = true
      then visit hook.name site check tree path else (tree, .empty) := by
  rw [run_of_prepare (fun other hother => List.mem_singleton.1 hother ▸ hfile) hprepare]
  cases hconcerns : hook.concerns path with
  | false => simp [hconcerns, visitAll, visitAllOn]
  | true => simp [hconcerns, visitAll, visitAllOn, visit, Report.append_empty]

/-- The reports on the files that a hook looks at are those on all of them. -/
theorem concat_filter (hfiles : ∀ path ∈ paths, tree.isFile site.directory path = true)
    (hprepare : hook.prepare site tree = .ok check) :
    Report.concat ((paths.filter hook.concerns).map fun path =>
        (visit hook.name site check tree path).2)
      = .concat (paths.map fun path => (hook.run site tree [path]).2) := by
  induction paths with
  | nil => rfl
  | cons first rest ih =>
      have hrest := ih fun path hpath => hfiles path (List.mem_cons_of_mem _ hpath)
      have hfirst : hook.run site tree [first] = if hook.concerns first = true
          then visit hook.name site check tree first else (tree, .empty) :=
        run_alone (hfiles first List.mem_cons_self) hprepare
      cases hconcerns : hook.concerns first with
      | false =>
          rw [List.filter_cons_of_neg (by simp [hconcerns]), hrest, List.map_cons,
            Report.concat_cons, hfirst]
          simp [hconcerns]
      | true =>
          rw [List.filter_cons_of_pos hconcerns, List.map_cons, List.map_cons, Report.concat_cons,
            Report.concat_cons, hrest, hfirst]
          simp [hconcerns]

/-- **A run over some files and the runs over each of them.** -/
theorem run_apart (hreads : ∀ check, hook.prepare site tree = .ok check → check.ReadsFirst)
    (hfiles : ∀ path ∈ paths, tree.isFile site.directory path = true)
    (hapart : paths.Pairwise (Apart site tree)) :
    (∀ path ∈ paths, ∀ location, tree.locate site.directory path = .ok location →
        (hook.run site tree paths).1.fileAt? location
          = (hook.run site tree [path]).1.fileAt? location)
      ∧ (hook.run site tree paths).2.output
        = paths.flatMap (fun path => (hook.run site tree [path]).2.output)
      ∧ (hook.run site tree paths).2.failing
        = paths.any fun path => (hook.run site tree [path]).2.failing := by
  cases hprepare : hook.prepare site tree with
  | error error =>
      -- no run can start, and there is nothing to do where no path is given
      have halone : ∀ path ∈ paths, hook.run site tree [path] = (tree, .fatal hook.name error) :=
        fun path hpath => run_of_fatal
          (fun other hother => List.mem_singleton.1 hother ▸ hfiles path hpath) (by simp) hprepare
      cases paths with
      | nil => exact ⟨fun _ hpath => (nomatch hpath), rfl, rfl⟩
      | cons first rest =>
          have hrun := run_of_fatal hfiles (by simp) hprepare
          refine ⟨fun path hpath location hlocate => ?_, ?_, ?_⟩
          · rw [hrun, halone path hpath]
          · rw [hrun, eq_comm]
            refine List.flatMap_eq_nil_iff.2 fun path hpath => ?_
            rw [halone path hpath]
            rfl
          · rw [hrun, List.any_cons, halone first List.mem_cons_self]
            rfl
  | ok check =>
      have hkept : (paths.filter hook.concerns).Pairwise (Apart site tree) := hapart.filter _
      obtain ⟨hsame, hreport⟩ := visitAll_apart (hreads check hprepare) hook.name tree hkept
      rw [run_of_prepare hfiles hprepare, hreport, concat_filter hfiles hprepare,
        Report.output_concat, Report.failing_concat, List.flatMap_map, List.any_map]
      refine ⟨fun path hpath location hlocate => ?_, rfl, rfl⟩
      rw [run_alone (hfiles path hpath) hprepare]
      cases hconcerns : hook.concerns path with
      | true =>
          rw [if_pos rfl]
          exact hsame path (List.mem_filter.2 ⟨hpath, hconcerns⟩) location hlocate
      | false =>
          rw [if_neg Bool.false_ne_true]
          refine fileAt?_visitAll (hreads check hprepare) hook.name (fun other hother => ?_) hlocate
          obtain ⟨hother, hconcerned⟩ := List.mem_filter.1 hother
          have hne : path ≠ other := fun heq => by simp [← heq, hconcerns] at hconcerned
          exact hapart.forall hpath hother hne

/-- **Paths in another order** leave the same files, and the run fails as before. -/
theorem run_perm (hreads : ∀ check, hook.prepare site tree = .ok check → check.ReadsFirst)
    (hfiles : ∀ path ∈ paths, tree.isFile site.directory path = true)
    (hapart : paths.Pairwise (Apart site tree)) (hperm : others.Perm paths) :
    (hook.run site tree others).1 = (hook.run site tree paths).1
      ∧ (hook.run site tree others).2.failing = (hook.run site tree paths).2.failing := by
  have hfiles' : ∀ path ∈ others, tree.isFile site.directory path = true :=
    fun path hpath => hfiles path (hperm.subset hpath)
  have hapart' : others.Pairwise (Apart site tree) :=
    (hperm.pairwise_iff fun h => Apart.symm h).2 hapart
  constructor
  · cases hprepare : hook.prepare site tree with
    | ok check =>
        rw [run_of_prepare hfiles hprepare, run_of_prepare hfiles' hprepare]
        exact visitAll_perm (hreads check hprepare) hook.name (hperm.filter _) tree
          (hapart'.filter _)
    | error error =>
        by_cases hne : paths = []
        · subst hne
          rw [hperm.eq_nil]
        · have hne' : others ≠ [] := fun hnil => hne (hnil ▸ hperm).nil_eq.symm
          rw [run_of_fatal hfiles hne hprepare, run_of_fatal hfiles' hne' hprepare]
  · rw [(run_apart hreads hfiles hapart).2.2, (run_apart hreads hfiles' hapart').2.2]
    exact hperm.any_eq

end FileHook

namespace Hook

variable {hook : Hook} {given : CommandLine.Given} {site : Site} {tree : FileTree}
  {arguments : List Text} {fileHook : FileHook}

/-! ### Runs with arguments -/

/-- What a hook over files does depends on the switches, not on the files that are given. -/
theorem fileHook?_operands (hook : Hook) (given : CommandLine.Given) (operands : List Text) :
    hook.fileHook? { given with operands } = hook.fileHook? given := by
  cases hook <;> rfl

theorem run_of_operands {operands : List Text} (hhook : hook.fileHook? given = some fileHook)
    (harguments : CommandLine.parse hook.grammar arguments = .ok { given with operands }) :
    hook.run site tree arguments
      = .finished (fileHook.run site tree operands).1 (fileHook.run site tree operands).2 := by
  rw [run_of_parse harguments, perform, performOn, fileHook?_operands, hhook]
  rfl

/-- The exit code of a run that is finished is that of a failure or none. -/
theorem exitCode_finished_eq_one_iff {report : Report} :
    (Answer.finished tree report).exitCode = 1 ↔ report.failing = true := by
  cases hfailing : report.failing <;> simp [Answer.exitCode, hfailing]

/-- **Files are processed independently.**  When a hook over files is run with arguments that name
files at different places, then each file is left as a run with the same switches over that file
alone leaves it, from the same files; what is printed is what these runs print, in the order of the
arguments; and the exit code is one exactly when it is for one of them.  So the same files in
another order leave the same tree and the same exit code.  It does not matter which of the files
cannot be judged, and if the hook cannot start, neither can it over a single file. -/
theorem files_independent {alone : Text → List Text} (hhook : hook ≠ .addIssue)
    (hgiven : CommandLine.parse hook.grammar arguments = .ok given)
    (hfiles : ∀ path ∈ given.operands, tree.isFile site.directory path = true)
    (hapart : given.operands.Pairwise fun path other =>
      tree.locate site.directory path ≠ tree.locate site.directory other)
    (halone : ∀ path ∈ given.operands,
      CommandLine.parse hook.grammar (alone path) = .ok { given with operands := [path] }) :
    (∀ path ∈ given.operands, ∀ location, tree.locate site.directory path = .ok location →
        ((hook.run site tree arguments).files tree).fileAt? location
          = ((hook.run site tree (alone path)).files tree).fileAt? location)
      ∧ (hook.run site tree arguments).printed hook
        = given.operands.flatMap (fun path => (hook.run site tree (alone path)).printed hook)
      ∧ ((hook.run site tree arguments).exitCode = 1 ↔
          ∃ path ∈ given.operands, (hook.run site tree (alone path)).exitCode = 1)
      ∧ ∀ reordered operands, operands.Perm given.operands →
          CommandLine.parse hook.grammar reordered = .ok { given with operands } →
          (hook.run site tree reordered).files tree = (hook.run site tree arguments).files tree
            ∧ (hook.run site tree reordered).exitCode
              = (hook.run site tree arguments).exitCode := by
  obtain ⟨fileHook, hfileHook, -⟩ := exists_fileHook hhook given site tree
  have hreads : ∀ check, fileHook.prepare site tree = .ok check → check.ReadsFirst :=
    fun check hprepare => readsFirst_of_fileHook? hfileHook hprepare
  obtain ⟨hsame, hprinted, hfailing⟩ := FileHook.run_apart hreads hfiles hapart
  have hrun : ∀ path ∈ given.operands, hook.run site tree (alone path)
      = .finished (fileHook.run site tree [path]).1 (fileHook.run site tree [path]).2 :=
    fun path hpath => run_of_operands hfileHook (halone path hpath)
  rw [run_of_operands hfileHook hgiven]
  refine ⟨?_, ?_, ?_, ?_⟩
  · intro path hpath location hlocate
    rw [hrun path hpath]
    exact hsame path hpath location hlocate
  · refine hprinted.trans (List.flatMap_congr fun path hpath => ?_)
    rw [hrun path hpath]
    rfl
  · rw [exitCode_finished_eq_one_iff, hfailing, List.any_eq_true]
    refine exists_congr fun path => and_congr_right fun hpath => ?_
    rw [hrun path hpath, exitCode_finished_eq_one_iff]
  · intro reordered operands hperm hreordered
    obtain ⟨htree, hcode⟩ := FileHook.run_perm hreads hfiles hapart hperm
    rw [run_of_operands hfileHook hreordered]
    exact ⟨htree, congrArg (fun failing : Bool => if failing then 1 else 0) hcode⟩

/-- Two lists, and between them a file that is no text, in the root directory. -/
def listsAndNoText : FileTree :=
  ⟨[(["list"], .file (encode "b\na\n")), (["bad"], .file ⟨#[255]⟩),
    (["other"], .file (encode "d\nc\n"))]⟩

/-- The file that is no text does not stop the lists from being sorted, and what is printed is what
is printed for each file alone. -/
theorem files_independent_lists :
    (∀ path ∈ (["list", "bad", "other"] : List Text), listsAndNoText.isFile [] path = true)
      ∧ (sortFileContents.run ⟨[], none, 2024, false⟩ listsAndNoText
            ["list", "bad", "-u", "other"]).printed sortFileContents
        = (["list", "bad", "other"] : List Text).flatMap fun path =>
          (sortFileContents.run ⟨[], none, 2024, false⟩ listsAndNoText ["-u", path]).printed
            sortFileContents := by
  have hfiles : ∀ path ∈ (["list", "bad", "other"] : List Text),
      listsAndNoText.isFile [] path = true := by decide
  have hlocate : ∀ path ∈ (["list", "bad", "other"] : List Text),
      listsAndNoText.locate [] path = .ok [path] := by
    simp only [List.forall_mem_cons, List.not_mem_nil, false_implies, implies_true, and_true]
    exact ⟨rfl, rfl, rfl⟩
  have hdistinct : (["list", "bad", "other"] : List Text).Pairwise (· ≠ ·) := by decide
  refine ⟨hfiles, (@files_independent sortFileContents ⟨[("unique", [])], ["list", "bad", "other"]⟩
    ⟨[], none, 2024, false⟩ listsAndNoText ["list", "bad", "-u", "other"]
    (fun path => ["-u", path]) (by decide) rfl hfiles ?_ ?_).2.1⟩
  · refine hdistinct.imp_of_mem fun hpath hother hne heq => hne ?_
    rw [hlocate _ hpath, hlocate _ hother] at heq
    exact List.cons.inj (Except.ok.inj heq) |>.1
  · simp only [List.forall_mem_cons, List.not_mem_nil, false_implies, implies_true, and_true]
    exact ⟨rfl, rfl, rfl⟩

end Hook

end GitHooks

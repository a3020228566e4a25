/-
**Hooks that cannot start.**

Whether a hook can start is found out before the first file is judged: every argument has to name a
file, the hook that adds notices has to have settings, and the one that updates them a repository.
Where that fails nothing has been written yet, so nothing is changed and nothing is printed,
whatever the place of the argument at fault.

When the hook that adds notices has started, every file is judged, one after the other, also behind
those that fail.  Since the format for the files of every language has been checked by then, a file
fails only if its language is not known or it cannot be read.

Main definitions:

* `AddCopyright.Faulty` — what keeps the hook that adds notices from starting;
* `Hook.CannotStart` — what keeps a hook over files from starting;
* `FileHook.judgements` — the judgements on some files, in order;
* `Report.ofJudgements` — the report on some files, from the judgements on them.

Main results:

* `FileHook.fatal_of_not_file`, `FileHook.fatal_of_fails` — runs that do not start;
* `FileHook.visitAll_eq_ofJudgements` — the report on some files is made from all judgements;
* `AddCopyright.error_of_judge` — why a file fails;
* `Hook.startup_atomic` — a hook starts, or changes nothing.
-/

import GitHooks.Proofs.Hook.Account
import GitHooks.Proofs.Notice.Idempotence
import GitHooks.Proofs.Settings.Faults

set_option relaxedAutoImplicit false
set_option autoImplicit false

namespace GitHooks

open Text

/-! ### Runs that do not start -/

namespace FileHook

variable {hook : FileHook} {site : Site} {tree : FileTree} {path : Text} {paths : List Text}
  {check : Check}

/-- A hook that is given something that is no file does not start, wherever it stands. -/
theorem fatal_of_not_file (hpath : path ∈ paths) (h : tree.isFile site.directory path = false) :
    ∃ error, hook.run site tree paths = (tree, .fatal hook.name error) := by
  have hfind : ∃ first,
      paths.find? (fun path => !tree.isFile site.directory path) = some first := by
    rw [← Option.isSome_iff_exists, List.find?_isSome]
    exact ⟨path, hpath, by simp [h]⟩
  obtain ⟨first, hfirst⟩ := hfind
  rw [run_eq, resolveFiles, hfirst]
  exact ⟨_, rfl⟩

/-- A hook that cannot find out what it needs to know does not start where it is given anything. -/
theorem fatal_of_fails (hpaths : paths ≠ []) (h : Fails (hook.prepare site tree)) :
    ∃ error, hook.run site tree paths = (tree, .fatal hook.name error) := by
  by_cases hfiles : ∀ path ∈ paths, tree.isFile site.directory path = true
  · obtain ⟨error, hprepare⟩ := h
    rw [run_of_files hpaths hfiles, hprepare]
    exact ⟨error, rfl⟩
  · have hnot : ∃ path ∈ paths, tree.isFile site.directory path = false := by simpa using hfiles
    obtain ⟨path, hpath, hnot⟩ := hnot
    exact fatal_of_not_file hpath hnot

/-! ### One judgement after the other -/

/-- The judgements on some files, in order, each on the files as those before left them. -/
def judgements (site : Site) (check : Check) (tree : FileTree) :
    List Text → List (Except HookError Judgement)
  | [] => []
  | path :: rest =>
    let judgement := check path (contentOf tree site.directory path)
    judgement :: judgements site check (carryOut tree site.directory path judgement) rest

theorem length_judgements (site : Site) (check : Check) (tree : FileTree) (paths : List Text) :
    (judgements site check tree paths).length = paths.length := by
  induction paths generalizing tree with
  | nil => rfl
  | cons path rest ih => exact congrArg Nat.succ (ih _)

/-- What holds of the judgement on every file, whatever its content, holds of all judgements. -/
theorem forall_mem_judgements {P : Except HookError Judgement → Prop}
    (h : ∀ tree path, P (check path (contentOf tree site.directory path))) (tree : FileTree)
    (paths : List Text) : ∀ judgement ∈ judgements site check tree paths, P judgement := by
  induction paths generalizing tree with
  | nil => exact fun _ hmem => absurd hmem List.not_mem_nil
  | cons path rest ih => exact List.forall_mem_cons.2 ⟨h tree path, ih _⟩

end FileHook

/-- The report on some files, from the judgements on them in order. -/
def Report.ofJudgements (name : Text) (site : Site) (paths : List Text)
    (judgements : List (Except HookError Judgement)) : Report :=
  ((paths.zip judgements).map fun (path, judgement) =>
    Report.ofJudgement name (Path.shown site.path path) judgement).foldr (· ++ ·) .empty

/-- **The report on some files is made from all judgements**, also behind those that are errors. -/
theorem FileHook.visitAll_eq_ofJudgements (name : Text) (site : Site) (check : Check)
    (tree : FileTree) (paths : List Text) :
    (visitAll name site check tree paths).2
      = Report.ofJudgements name site paths (judgements site check tree paths) := by
  induction paths generalizing tree with
  | nil => rfl
  | cons path rest ih =>
      have hrest := ih (visit name site check tree path).1
      rw [visitAll_cons, hrest, visit_eq]
      rfl

/-! ### Starting to add notices -/

namespace AddCopyright

variable {given : CommandLine.Given} {site : Site} {tree : FileTree}
  {settings : Settings.Resolved} {path : Text}

/-- The name of the committer at a site, where it is known. -/
def identity (site : Site) : Option Text := (Git.userName? site.git).toOption.join

/-- Where project files are looked for: at the root of the working tree, or in the current
directory. -/
def configRoot (site : Site) : Text :=
  (Git.workingTree site.git site.path).toOption.getD site.path

/-- What keeps the hook that adds notices from starting. -/
def Faulty (given : CommandLine.Given) (site : Site) (tree : FileTree) : Prop :=
  Settings.Faulty tree site.directory (given.value? "config") (configRoot site) (layerOf given)
    (identity site)

/-- There are no settings in force at a site exactly where there is a fault. -/
theorem fails_settings_iff :
    Fails (AddCopyright.settings given site tree) ↔ Faulty given site tree :=
  Settings.faulty_iff rfl

theorem fails_prepare_iff : Fails ((hook given).prepare site tree) ↔ Faulty given site tree := by
  rw [prepare_eq, fails_map_iff, fails_settings_iff]

/-- With a format that has been checked, a notice can be added to every file. -/
theorem exists_add {settings : NoticeSettings} (h : NoticeFormat.check settings.format = .ok ())
    (lines : List Text) (language : Language) (year : Int) :
    ∃ edit, Notice.add lines settings language year = .ok edit := by
  cases hn : (Notice.find language lines).notice with
  | some notice => exact ⟨_, Notice.add_of_isSome (by rw [hn]; rfl)⟩
  | none =>
      obtain ⟨tail, htail⟩ := Notice.exists_inserted h language year
        (Notice.bodyOf (lines.drop (Header.preambleLength lines)))
      exact ⟨_, Notice.add_of_none hn htail⟩

theorem check_of_settings (hsettings : AddCopyright.settings given site tree = .ok settings)
    (language : Language) :
    NoticeFormat.check (settings.forLanguage language).format = .ok () := by
  obtain ⟨files, -, hresolve⟩ := Settings.exists_of_bind hsettings
  exact Settings.check_forLanguage hresolve language

/-- **Why a file fails**: its language is not known, or it cannot be read. -/
theorem error_of_judge (hsettings : AddCopyright.settings given site tree = .ok settings)
    {content : Except HookError Text} {year : Int} {error : HookError}
    (h : judge settings year path content = .error error) :
    error = .unsupportedFileType path ∨ content = .error error := by
  rcases bind_eq_error_iff.1 h with hlanguage | ⟨language, -, h⟩
  · rw [languageOf] at hlanguage
    split at hlanguage
    · exact nomatch hlanguage
    · exact .inl (Except.error.inj hlanguage).symm
  · rcases bind_eq_error_iff.1 h with hcontent | ⟨text, -, h⟩
    · exact .inr hcontent
    · -- a notice can be added, so that nothing fails any more
      obtain ⟨edit, hedit⟩ := exists_add (check_of_settings hsettings language)
        (Buffer.parse text).lines language year
      dsimp only at h
      rw [hedit] at h
      change (if edit.changed then _ else _) = _ at h
      split at h
      · exact nomatch h
      · exact nomatch h

/-- No file fails for want of settings. -/
theorem error_ne_of_judge (hsettings : AddCopyright.settings given site tree = .ok settings)
    {tree' : FileTree} {directory : Location} {year : Int} {error : HookError}
    (h : judge settings year path (FileHook.contentOf tree' directory path) = .error error) :
    error ≠ .missingIdentity ∧ ∀ fault, error ≠ .configuration fault := by
  rcases error_of_judge hsettings h with rfl | hcontent
  · exact ⟨by simp, by simp⟩
  · rw [FileHook.contentOf] at hcontent
    cases hread : tree'.read directory path with
    | ok text =>
        rw [hread] at hcontent
        cases hcontent
    | error fault =>
        rw [hread] at hcontent
        rw [← Except.error.inj hcontent]
        exact ⟨by simp, by simp⟩

end AddCopyright

/-! ### Starting -/

namespace Hook

variable {hook : Hook} {given : CommandLine.Given} {site : Site} {tree : FileTree}
  {arguments : List Text}

/-- What keeps a hook over files from starting. -/
inductive CannotStart (hook : Hook) (given : CommandLine.Given) (site : Site) (tree : FileTree) :
    Prop where
  /-- An argument does not name a file. -/
  | notFile {path : Text} (hpath : path ∈ given.operands)
      (h : tree.isFile site.directory path = false)
  /-- There are no settings for the notices to be added. -/
  | faulty (hhook : hook = .addCopyright) (hgiven : given.operands ≠ [])
      (h : AddCopyright.Faulty given site tree)
  /-- There is no repository to tell the years of the notices to be updated. -/
  | noRepository (hhook : hook = .updateCopyright) (hgiven : given.operands ≠ [])
      (h : Fails (Git.workingTree site.git site.path))

theorem fails_prepare_of_noRepository (h : Fails (Git.workingTree site.git site.path)) :
    Fails (UpdateCopyright.hook.prepare site tree) := by
  obtain ⟨error, hroot⟩ := h
  rw [UpdateCopyright.prepare_eq, hroot]
  exact ⟨_, rfl⟩

/-- A hook that cannot start reports why, and that is all. -/
theorem fatal_of_cannotStart {fileHook : FileHook}
    (hfileHook : hook.fileHook? given = some fileHook) (h : hook.CannotStart given site tree) :
    ∃ error, fileHook.run site tree given.operands = (tree, .fatal fileHook.name error) := by
  cases h with
  | notFile hpath hnot => exact FileHook.fatal_of_not_file hpath hnot
  | faulty hhook hoperands hfaulty =>
      subst hhook
      obtain rfl := Option.some.inj hfileHook
      exact FileHook.fatal_of_fails hoperands (AddCopyright.fails_prepare_iff.2 hfaulty)
  | noRepository hhook hoperands hfails =>
      subst hhook
      obtain rfl := Option.some.inj hfileHook
      exact FileHook.fatal_of_fails hoperands (fails_prepare_of_noRepository hfails)

/-- Where the hook that adds notices can start, all files are visited with the settings in force. -/
theorem exists_settings_of_not_cannotStart (h : ¬ addCopyright.CannotStart given site tree) :
    ∃ settings : Settings.Resolved,
      (given.operands ≠ [] → AddCopyright.settings given site tree = .ok settings)
        ∧ (AddCopyright.hook given).run site tree given.operands
          = FileHook.visitAll "add-copyright" site (AddCopyright.judge settings site.year) tree
            given.operands := by
  by_cases hoperands : given.operands = []
  · refine ⟨default, fun hne => absurd hoperands hne, ?_⟩
    rw [hoperands]
    rfl
  · have hfiles : ∀ path ∈ given.operands, tree.isFile site.directory path = true := by
      intro path hpath
      rw [← Bool.not_eq_false]
      exact fun hnot => h (.notFile hpath hnot)
    obtain ⟨settings, hsettings⟩ := not_fails_iff.1
      (mt AddCopyright.fails_settings_iff.1 fun hfaulty => h (.faulty rfl hoperands hfaulty))
    refine ⟨settings, fun _ => hsettings, ?_⟩
    have hall : given.operands.filter (AddCopyright.hook given).concerns = given.operands :=
      List.filter_eq_self.2 fun _ _ => rfl
    rw [FileHook.run_of_files hoperands hfiles, AddCopyright.prepare_eq, hsettings, hall]
    rfl

/-- **A hook starts, or changes nothing.**  Where a hook over files cannot start, its exit code is
one, nothing is printed, and all files are as they were.  Where the hook that adds notices can
start, every argument is judged in order, with the settings in force, and no file fails for want of
them. -/
theorem startup_atomic (hhook : hook ≠ .addIssue)
    (hgiven : CommandLine.parse hook.grammar arguments = .ok given) :
    (hook.CannotStart given site tree →
        (hook.run site tree arguments).exitCode = 1
          ∧ (hook.run site tree arguments).printed hook = []
          ∧ (hook.run site tree arguments).files tree = tree)
      ∧ (hook = .addCopyright → ¬ hook.CannotStart given site tree →
        ∃ settings : Settings.Resolved,
          (given.operands ≠ [] → AddCopyright.settings given site tree = .ok settings)
            ∧ let check := AddCopyright.judge settings site.year
              let judgements := FileHook.judgements site check tree given.operands
              hook.run site tree arguments
                  = .finished (FileHook.visitAll "add-copyright" site check tree given.operands).1
                    (Report.ofJudgements "add-copyright" site given.operands judgements)
                ∧ judgements.length = given.operands.length
                ∧ ∀ judgement ∈ judgements, ∀ error, judgement = .error error →
                  error ≠ .missingIdentity ∧ ∀ fault, error ≠ .configuration fault) := by
  obtain ⟨fileHook, hfileHook, hperform⟩ := exists_fileHook hhook given site tree
  have hrun : hook.run site tree arguments
      = .finished (fileHook.run site tree given.operands).1
        (fileHook.run site tree given.operands).2 := by
    rw [run_of_parse hgiven, perform, hperform, FileHook.run]
  constructor
  · intro hcannot
    obtain ⟨error, hfatal⟩ := fatal_of_cannotStart hfileHook hcannot
    rw [hrun, hfatal]
    exact ⟨rfl, rfl, rfl⟩
  · rintro rfl hcan
    obtain rfl := Option.some.inj hfileHook
    obtain ⟨settings, hsettings, hvisits⟩ := exists_settings_of_not_cannotStart hcan
    refine ⟨settings, hsettings, ?_, FileHook.length_judgements _ _ _ _, ?_⟩
    · rw [hrun, hvisits, FileHook.visitAll_eq_ofJudgements]
    · by_cases hoperands : given.operands = []
      · rw [hoperands]
        exact fun _ hmem => absurd hmem List.not_mem_nil
      · exact FileHook.forall_mem_judgements
          (fun _ _ _ h => AddCopyright.error_ne_of_judge (hsettings hoperands) h) tree _

/-- One Python file in the root directory, outside of any repository. -/
def onePython : FileTree := ⟨[(["a.py"], .file (encode "x = 1\n"))]⟩

theorem settings_onePython :
    AddCopyright.settings ⟨[("name", "Ada")], ["a.py"]⟩ ⟨[], none, 2024, false⟩ onePython
      = .ok ⟨"Ada", NoticeFormat.standard, false, []⟩ := rfl

/-- With a name, the hook adds a notice to the file; with an argument behind it that is no file, the
file stays as it is. -/
theorem startup_atomic_second_argument :
    let site : Site := ⟨[], none, 2024, false⟩
    CommandLine.parse addCopyright.grammar ["-n", "Ada", "a.py", "b.py"]
        = .ok ⟨[("name", "Ada")], ["a.py", "b.py"]⟩
      ∧ (addCopyright.run site onePython ["-n", "Ada", "a.py", "b.py"]).exitCode = 1
      ∧ (addCopyright.run site onePython ["-n", "Ada", "a.py", "b.py"]).printed addCopyright = []
      ∧ (addCopyright.run site onePython ["-n", "Ada", "a.py", "b.py"]).files onePython = onePython
      ∧ CommandLine.parse addCopyright.grammar ["-n", "Ada", "a.py"]
        = .ok ⟨[("name", "Ada")], ["a.py"]⟩
      ∧ ¬ addCopyright.CannotStart ⟨[("name", "Ada")], ["a.py"]⟩ site onePython
      ∧ ∃ tree' report, addCopyright.run site onePython ["-n", "Ada", "a.py"]
          = .finished tree' report := by
  intro site
  have hboth : CommandLine.parse addCopyright.grammar ["-n", "Ada", "a.py", "b.py"]
      = .ok ⟨[("name", "Ada")], ["a.py", "b.py"]⟩ := by decide
  have hone : CommandLine.parse addCopyright.grammar ["-n", "Ada", "a.py"]
      = .ok ⟨[("name", "Ada")], ["a.py"]⟩ := by decide
  have hsecond : ("b.py" : Text) ∈ (["a.py", "b.py"] : List Text) := by decide
  have hcannot : addCopyright.CannotStart ⟨[("name", "Ada")], ["a.py", "b.py"]⟩ site onePython :=
    .notFile hsecond rfl
  have hcan : ¬ addCopyright.CannotStart ⟨[("name", "Ada")], ["a.py"]⟩ site onePython := by
    intro h
    cases h with
    | notFile hpath hnot =>
        obtain rfl := List.mem_singleton.1 hpath
        exact absurd hnot (by decide)
    | faulty _ _ hfaulty =>
        exact not_fails_iff.2 ⟨_, settings_onePython⟩ (AddCopyright.fails_settings_iff.2 hfaulty)
    | noRepository hhook _ _ => exact nomatch hhook
  obtain ⟨hexit, hprinted, hfiles⟩ := (startup_atomic (by decide) hboth).1 hcannot
  obtain ⟨settings, -, hrun, -⟩ := (startup_atomic (by decide) hone).2 rfl hcan
  exact ⟨hboth, hexit, hprinted, hfiles, hone, hcan, _, _, hrun⟩

end Hook

end GitHooks

/-
**Hooks over files.**

Most hooks are given the paths of files.  Every path has to name a file before anything is done;
then what the hook needs to know is found out once, and the files are judged in order, each by its
path and its content as the files before it left them.  Where the disk refuses to replace a file,
the file stays as it is, and the next one is judged.

Main definitions:

* `Site` — where and when a hook runs;
* `Check`, `FileHook` — how a hook judges one file, and what it needs to know for that;
* `resolveFiles` — the paths, if each of them names a file;
* `FileHook.visitOn`, `FileHook.visitAllOn` — the files after judging one of them, and all;
* `FileHook.runOn` — a whole run;
* `FileHook.visit`, `FileHook.visitAll`, `FileHook.run` — the same on a disk that refuses nothing.

Main results:

* `FileHook.visit_eq` — a disk that refuses nothing carries out every judgement.
-/

import GitHooks.Git
import GitHooks.Hook.Report

set_option relaxedAutoImplicit false
set_option autoImplicit false

namespace GitHooks

/-! ### Sites -/

/-- Where and when a hook runs. -/
structure Site where
  /-- The current directory. -/
  directory : Location
  /-- The program that answers for the repository, if there is one. -/
  git : Option Git
  /-- The current year. -/
  year : Int
  /-- Whether changes are shown in colours. -/
  coloured : Bool

/-- The path of the current directory. -/
def Site.path (site : Site) : Text := FileTree.pathOf site.directory

/-- The paths, if each of them names a file. -/
def resolveFiles (tree : FileTree) (directory : Location) (paths : List Text) :
    Except HookError (List Text) :=
  match paths.find? fun path => !tree.isFile directory path with
  | some path => .error (.noSuchFile path)
  | none => .ok paths

/-! ### Hooks -/

/-- How a hook judges a file, by its path and its content or the reason that it has none. -/
abbrev Check := Text → Except HookError Text → Except HookError Judgement

/-- A hook over files. -/
structure FileHook where
  name : Text
  /-- Whether the hook looks at the file with a path. -/
  concerns : Text → Bool
  /-- What the hook does with files, once it knows about the site and the files before the run. -/
  prepare : Site → FileTree → Except HookError Check

namespace FileHook

/-- The files with the content that a judgement gives to one of them. -/
def carryOut (tree : FileTree) (directory : Location) (path : Text) :
    Except HookError Judgement → FileTree
  | .ok ⟨_, .modified content⟩ => tree.write directory path content
  | _ => tree

/-- The content of the file with a path, or the reason that it has none. -/
def contentOf (tree : FileTree) (directory : Location) (path : Text) : Except HookError Text :=
  (tree.read directory path).mapError (.unreadable path)

/-- The remarks on a file, and why it cannot be replaced, where a judgement gives it other content
and the disk refuses that. -/
def refused? (disk : Disk) (tree : FileTree) (path : Text) :
    Except HookError Judgement → Option (List Remark × Disk.Refusal)
  | .ok ⟨remarks, .modified content⟩ =>
    (disk.refusal? tree path content).map fun refusal => (remarks, refusal)
  | _ => none

/-- The files after one of them has been judged, and the report on it. -/
def visitOn (disk : Disk) (name : Text) (site : Site) (check : Check) (tree : FileTree)
    (path : Text) : FileTree × Report :=
  let shown := Path.shown site.path path
  let judgement := check path (contentOf tree site.directory path)
  match refused? disk tree path judgement with
  | some (remarks, refusal) => (tree, .ofRefusal name shown path remarks refusal)
  | none => (carryOut tree site.directory path judgement, .ofJudgement name shown judgement)

/-- The files after some have been judged in order, and the report on them. -/
def visitAllOn (disk : Disk) (name : Text) (site : Site) (check : Check) (tree : FileTree) :
    List Text → FileTree × Report
  | [] => (tree, .empty)
  | path :: rest =>
    let (tree, first) := visitOn disk name site check tree path
    let (tree, others) := visitAllOn disk name site check tree rest
    (tree, first ++ others)

/-- The files after a run over some paths, and the report of the run. -/
def runOn (disk : Disk) (hook : FileHook) (site : Site) (tree : FileTree) (paths : List Text) :
    FileTree × Report :=
  match resolveFiles tree site.directory paths with
  | .error error => (tree, .fatal hook.name error)
  | .ok [] => (tree, .empty)
  | .ok paths =>
    match hook.prepare site tree with
    | .error error => (tree, .fatal hook.name error)
    | .ok check => visitAllOn disk hook.name site check tree (paths.filter hook.concerns)

/-! ### Disks that refuse nothing -/

/-- A visit on a disk that refuses nothing. -/
def visit (name : Text) (site : Site) (check : Check) (tree : FileTree) (path : Text) :
    FileTree × Report :=
  visitOn .obliging name site check tree path

/-- The visits of some files on a disk that refuses nothing. -/
def visitAll (name : Text) (site : Site) (check : Check) (tree : FileTree) (paths : List Text) :
    FileTree × Report :=
  visitAllOn .obliging name site check tree paths

/-- A run on a disk that refuses nothing. -/
def run (hook : FileHook) (site : Site) (tree : FileTree) (paths : List Text) :
    FileTree × Report :=
  hook.runOn .obliging site tree paths

theorem refused?_obliging (tree : FileTree) (path : Text) (judgement : Except HookError Judgement) :
    refused? .obliging tree path judgement = none := by
  cases judgement with
  | error error => rfl
  | ok judgement =>
      obtain ⟨remarks, verdict⟩ := judgement
      cases verdict <;> rfl

/-- **A disk that refuses nothing carries out every judgement.** -/
theorem visit_eq (name : Text) (site : Site) (check : Check) (tree : FileTree) (path : Text) :
    visit name site check tree path
      = (carryOut tree site.directory path (check path (contentOf tree site.directory path)),
        .ofJudgement name (Path.shown site.path path)
          (check path (contentOf tree site.directory path))) := by
  rw [visit, visitOn, refused?_obliging]

theorem visit_fst (name : Text) (site : Site) (check : Check) (tree : FileTree) (path : Text) :
    (visit name site check tree path).1
      = carryOut tree site.directory path (check path (contentOf tree site.directory path)) := by
  rw [visit_eq]

theorem visitAll_cons (name : Text) (site : Site) (check : Check) (tree : FileTree) (path : Text)
    (rest : List Text) :
    visitAll name site check tree (path :: rest)
      = ((visitAll name site check (visit name site check tree path).1 rest).1,
        (visit name site check tree path).2
          ++ (visitAll name site check (visit name site check tree path).1 rest).2) := rfl

theorem run_eq (hook : FileHook) (site : Site) (tree : FileTree) (paths : List Text) :
    hook.run site tree paths = match resolveFiles tree site.directory paths with
      | .error error => (tree, .fatal hook.name error)
      | .ok [] => (tree, .empty)
      | .ok paths =>
        match hook.prepare site tree with
        | .error error => (tree, .fatal hook.name error)
        | .ok check => visitAll hook.name site check tree (paths.filter hook.concerns) := rfl


end FileHook

/-- The language of the file with a path. -/
def languageOf (path : Text) : Except HookError Language :=
  match Language.ofPath? path with
  | some language => .ok language
  | none => .error (.unsupportedFileType path)

end GitHooks

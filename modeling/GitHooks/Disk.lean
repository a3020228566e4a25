/-
**Disks that may refuse a change.**

A file is not written into.  Another file is made in its directory, is filled, gets the permissions
of the one it stands for, and takes its place.  The disk may refuse each of these steps.  Then the
other file is taken away, so that everything is as it was, and an error tells the path that the step
was about.

Main definitions:

* `Disk.Step`, `Disk.Refusal` — the steps, and one that is refused;
* `Disk.Refusal.message` — what a user is told about it;
* `Disk` — what is refused;
* `Disk.obliging`, `Disk.refusing` — the disk that refuses nothing, and one that refuses some files.
-/

import GitHooks.HookError
import GitHooks.Path

set_option relaxedAutoImplicit false
set_option autoImplicit false

namespace GitHooks

namespace Disk

/-! ### Refusals -/

/-- The steps of replacing a file. -/
inductive Step where
  /-- Another file is made in the same directory. -/
  | create
  /-- The other file, which has a path of its own, gets the content. -/
  | fill (other : Text)
  /-- It gets the permissions of the file it stands for. -/
  | permit
  /-- It takes the place of the file. -/
  | rename
deriving DecidableEq, Repr, Inhabited

/-- The path that an error at a step of replacing a file tells. -/
def Step.path (replaced : Text) : Step → Text
  | create => Path.directory replaced
  | fill other => other
  | permit | rename => replaced

/-- A step that is refused. -/
structure Refusal where
  step : Step
  reason : Text
deriving DecidableEq, Repr, Inhabited

/-- What a user is told about a file that could not be replaced.  The reason is told once more, as
it is where a path could not be read. -/
def Refusal.message (path : Text) (refusal : Refusal) : Text :=
  "failed to write " ++ path ++ ": "
    ++ HookError.accessMessage (refusal.step.path path) refusal.reason ++ ": " ++ refusal.reason

example : Refusal.message "docs/./words" ⟨.create, "Permission denied (os error 13)"⟩
    = "failed to write docs/./words: failed to access docs: Permission denied (os error 13): "
      ++ "Permission denied (os error 13)" := by decide

end Disk

/-! ### Disks -/

/-- A disk, by what it refuses. -/
structure Disk where
  /-- Why the file with a path cannot be replaced by one with some content, if it cannot. -/
  refusal? : FileTree → Text → Text → Option Disk.Refusal

namespace Disk

/-- The disk that refuses nothing. -/
def obliging : Disk := ⟨fun _ _ _ => none⟩

@[simp] theorem refusal?_obliging (tree : FileTree) (path content : Text) :
    obliging.refusal? tree path content = none := rfl

/-- The disk that refuses to replace the files at some places, for paths from a directory. -/
def refusing (directory : Location) (refusals : List (Location × Refusal)) : Disk :=
  ⟨fun tree path _ =>
    match tree.locate directory path with
    | .ok location => refusals.lookup location
    | .error _ => none⟩

end Disk

end GitHooks

/-
**Errors.**

An error stops a hook or the processing of one file.  It is a cause; the wording is in one place.

Main definitions:

* `HookError` — the causes;
* `HookError.message` — what a user is told;
* `HookError.report` — the same in the report of a hook, where the reason that a path could not be
  read is told once more.
-/

import GitHooks.Config.Fault
import GitHooks.FileTree

set_option relaxedAutoImplicit false
set_option autoImplicit false

namespace GitHooks

/-- Why a hook or the processing of a file stops. -/
inductive HookError where
  | configuration (fault : Config.Fault)
  /-- There is no repository at a place. -/
  | notARepository (path : Text)
  /-- No source tells the name of a copyright holder. -/
  | missingIdentity
  /-- No language is known for the extension of a file. -/
  | unsupportedFileType (path : Text)
  /-- An argument does not name a file. -/
  | noSuchFile (path : Text)
  /-- A path leads to no text. -/
  | unreadable (path : Text) (fault : FileTree.Fault)
  /-- The program that answers queries about the repository is not there. -/
  | gitMissing (arguments : Text)
deriving DecidableEq, Repr, Inhabited

namespace HookError

/-- Why a path could not be used, where that is the error. -/
def reason? : HookError → Option Text
  | noSuchFile _ => some "no such file"
  | unreadable _ fault => some fault.message
  | _ => none

/-- What a user is told about a path that could not be used. -/
def accessMessage (path reason : Text) : Text := "failed to access " ++ path ++ ": " ++ reason

/-- What a user is told. -/
def message : HookError → Text
  | configuration fault => "configuration error: " ++ fault.message
  | notARepository path => "not a git repository: " ++ path
  | missingIdentity =>
    "no name available: pass --name, set \x60name\x60 in a config file, or configure git user.name"
  | unsupportedFileType path => "unsupported file type: " ++ path
  | noSuchFile path => accessMessage path "no such file"
  | unreadable path fault => accessMessage path fault.message
  | gitMissing arguments =>
    "git " ++ arguments ++ " failed: Failed to execute command: git " ++ arguments
      ++ ": No such file or directory (os error 2)"

/-- What a report tells: the message and behind it the reason, where there is one. -/
def report (error : HookError) : Text :=
  match error.reason? with
  | some reason => error.message ++ ": " ++ reason
  | none => error.message

end HookError

end GitHooks

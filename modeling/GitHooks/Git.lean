/-
**What the repository answers.**

Hooks ask four things of the repository: the name of the committer, the branch, the root of the
working tree, and the years of the commits to a file.  Each question is put to a program, which
may be missing; its replies are texts on two channels and a verdict.

Main definitions:

* `Git.Reply`, `Git` — a reply, and the program as its replies;
* `Git.userName`, `Git.branch`, `Git.root`, `Git.firstCommitYear` — the questions.
-/

import GitHooks.HookError
import GitHooks.Text.Lines
import GitHooks.Width

set_option relaxedAutoImplicit false
set_option autoImplicit false

namespace GitHooks

open Text

namespace Git

/-- A reply of the program. -/
structure Reply where
  output : Text
  complaints : Text
  succeeded : Bool
deriving DecidableEq, Repr, Inhabited

/-- The reply that the bytes on two channels and an exit code are. -/
def Reply.ofBytes (output complaints : ByteArray) (exitCode : Int) : Reply :=
  ⟨decodeLossy output, decodeLossy complaints, exitCode = 0⟩

end Git

/-- The program that answers for the repository. -/
structure Git where
  userName : Git.Reply
  branch : Git.Reply
  root : Git.Reply
  /-- The reply about the commits to a file. -/
  log : Text → Git.Reply

namespace Git

/-- A question put to the program, which is an error where there is none. -/
def ask (git : Option Git) (arguments : Text) (question : Git → Reply) : Except HookError Reply :=
  match git with
  | some git => .ok (question git)
  | none => .error (.gitMissing arguments)

/-- The name of the committer, where it is set. -/
def userName? (git : Option Git) : Except HookError (Option Text) :=
  (ask git "config user.name" Git.userName).map fun reply =>
    let name := trim reply.output
    if reply.succeeded ∧ name ≠ [] then some name else none

/-- The name of the branch; empty where none is checked out. -/
def branchName (git : Option Git) : Except HookError Text :=
  (ask git "symbolic-ref --short HEAD" Git.branch).map fun reply =>
    if reply.succeeded then trim reply.output else []

/-- The root of the working tree that a directory is in. -/
def workingTree (git : Option Git) (directory : Text) : Except HookError Text :=
  (ask git "rev-parse --show-toplevel" Git.root).bind fun reply =>
    if reply.succeeded then .ok (trim reply.output) else .error (.notARepository directory)

/-- The number that decimal digits with perhaps a sign stand for, if it fits 32 bits with a sign. -/
def year? (t : Text) : Option Int :=
  let number? (digits : Text) : Option Nat :=
    if !digits.isEmpty && digits.all Char.isDigit then some (digitsValue digits) else none
  let value := match dropLeading? "-" t with
    | some digits => (number? digits).map fun n => -(n : Int)
    | none => (number? ((dropLeading? "+" t).getD t)).map Int.ofNat
  value.filter (fitsSigned 32)

/-- The year in the last line of a log that is not blank. -/
def oldestYear? (log : Text) : Option Int :=
  (((lines log).map trim).filter fun line => !line.isEmpty).getLast?.bind year?

/-- The year of the first commit to a file; a file without commits has none. -/
def firstCommitYear? (git : Option Git) (file : Text) : Except HookError (Option Int) :=
  (ask git ("log --follow --format=%ad --date=format:%Y -- " ++ file) fun git => git.log file).bind
    fun reply =>
      if reply.succeeded then .ok (oldestYear? reply.output)
      else if occursIn "not a git repository" reply.complaints then .error (.notARepository file)
      else .ok none

end Git

end GitHooks

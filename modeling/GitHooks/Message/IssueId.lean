/-
**Issue IDs.**

An issue ID is one to ten letters, a hyphen and one to five digits, such as `PROJ-123`.  The first
one in the name of a branch is the branch's issue, written in capitals.  A message mentions an
issue when one of its lines that is not a comment contains it.

Main definitions:

* `IssueId.at?` — the ID a text begins with;
* `IssueId.find?` — the first ID of a text, in capitals;
* `IssueId.mentionedIn` — whether a message mentions an ID.
-/

import GitHooks.Text.Lines
import GitHooks.Text.Space

set_option relaxedAutoImplicit false
set_option autoImplicit false

namespace GitHooks

namespace IssueId

open Text

/-- The most letters that an ID has. -/
def maxLetters : Nat := 10

/-- The most digits that an ID has. -/
def maxDigits : Nat := 5

/-- The ID that a text begins with, as it is written. -/
def at? (t : Text) : Option Text :=
  let letters := t.takeWhile Char.isAlpha
  match t.drop letters.length with
  | '-' :: u =>
    let digits := (u.takeWhile Char.isDigit).take maxDigits
    if letters.isEmpty || letters.length > maxLetters || digits.isEmpty then none
    else some (letters ++ '-' :: digits)
  | _ => none

/-- The first ID of a text, as it is written. -/
def findWritten? : Text → Option Text
  | [] => none
  | c :: t => (at? (c :: t)).or (findWritten? t)

/-- The first ID of a text, in capitals. -/
def find? (t : Text) : Option Text := (findWritten? t).map (List.map Char.toUpper)

/-- Whether a line, without the white space around it, is a comment. -/
def isComment (line : Text) : Bool := startsWith line "#"

/-- Whether a line of a message that is not a comment contains an ID. -/
def mentionedIn (id message : Text) : Bool :=
  (((lines message).map trim).filter fun line => !isComment line).any (occursIn id)

end IssueId

end GitHooks

/-
**Commit messages with the issue of their branch.**

A message is a subject, its first line, and a body.  When the branch has an issue that the message
does not mention, the message is laid out around the ID by a template; a subject that is a comment
gets the ID on a line of its own at the end.  Lines of the body that begin with a hash sign stay
at the beginning of a line, so that they are still comments.

Main definitions:

* `CommitMessage.split` — subject and body of a message;
* `CommitMessage.build` — the message laid out around the ID of a branch;
* `CommitMessage.withIssue?` — the message with the ID of its branch, where it needs one.
-/

import GitHooks.Message.IssueId
import GitHooks.Message.Template

set_option relaxedAutoImplicit false
set_option autoImplicit false

namespace GitHooks

namespace CommitMessage

open Text

/-- The first line of a message, trimmed, and everything behind it. -/
def split (message : Text) : Text × Text :=
  match cutAt? ['\n'] message with
  | some (subject, body) => (trim subject, body)
  | none => (trim message, [])

/-- Subject and body as one message. -/
def join (subject body : Text) : Text :=
  if body.isEmpty then subject else subject ++ "\n" ++ body

/-- A body, trimmed; a comment it begins with is put on a line of its own. -/
def bodyText (body : Text) : Text :=
  let body := trim body
  if IssueId.isComment body then '\n' :: body else body

/-- A message laid out around an issue ID. -/
def layOut (id subject body : Text) (template : Template) : Text :=
  if IssueId.isComment subject then trim (join subject body ++ "\n[" ++ id ++ "]")
  else
    trim <| template.fill fun
      | .subject => subject
      | .issueId => id
      | .body => bodyText body

/-- The message laid out around the ID of a branch; without an ID it is as it was. -/
def build (branch subject body : Text) (template : Template) : Text :=
  match IssueId.find? branch with
  | none => join subject body
  | some id => layOut id subject body template

/-- The message with the ID of its branch; none when the branch has no ID or the message already
mentions it. -/
def withIssue? (branch message : Text) (template : Template) : Option Text :=
  (IssueId.find? branch).bind fun id =>
    if IssueId.mentionedIn id message then none
    else some (layOut id (split message).1 (split message).2 template)

end CommitMessage

end GitHooks

/-
**The lines of a text.**

A line ends with a line feed, which a carriage return may precede; the last line need not end at
all.  This is the reading of texts that are not written back: messages, formats, logs, INI files.
Files that are written back are held in a `Buffer`, which remembers its line endings.

Main definitions:

* `Text.dropReturn` — a line without the carriage return it may end with;
* `Text.lines` — the lines of a text, without their ends.
-/

import GitHooks.Text.Basic

set_option relaxedAutoImplicit false
set_option autoImplicit false

namespace GitHooks

namespace Text

/-- A line without the carriage return it may end with. -/
def dropReturn (t : Text) : Text := (dropTrailing? "\r" t).getD t

/-- The lines among the pieces between line feeds: every piece but the last was ended by a line
feed, and the last one is a line only if it is not empty. -/
def linesOfPieces : List Text → List Text
  | [] => []
  | [t] => if t.isEmpty then [] else [t]
  | t :: u :: rest => dropReturn t :: linesOfPieces (u :: rest)

/-- The lines of a text, without their ends. -/
def lines (t : Text) : List Text := linesOfPieces (splitOn "\n" t)

@[simp] theorem lines_nil : lines [] = [] := rfl

end Text

end GitHooks

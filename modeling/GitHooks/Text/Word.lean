/-
**Words.**

A word is a longest run of word characters: letters, marks, decimal digits, connectors such as
the low line, and the two joiners.  Whether a word begins or ends at a place is told by the
characters on both sides of it.

Main definitions:

* `Text.isWord` — word characters;
* `Text.startsInWord`, `Text.endsInWord` — whether a text begins or ends with a word character.
-/

import GitHooks.Text.Basic
import GitHooks.Text.Word.Ranges

set_option relaxedAutoImplicit false
set_option autoImplicit false

namespace GitHooks

namespace Text

/-! ### The class -/

/-- Word characters.  ASCII is decided without the table. -/
def isWord (c : Char) : Bool :=
  if c.toNat < 128 then c.isAlphanum || c == '_'
  else wordRanges.any fun range => range.1 ≤ c.toNat && c.toNat ≤ range.2

/-- Whether a text begins with a word character. -/
def startsInWord : Text → Bool
  | [] => false
  | c :: _ => isWord c

/-- Whether a text ends with a word character. -/
def endsInWord (t : Text) : Bool := t.getLast?.any isWord

end Text

end GitHooks

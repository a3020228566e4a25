/-
**The journal of a hook.**

Every decision of a hook can be noted in a journal, with the file it is about and the reason for
it.  Reasons are kept short, and an empty one is not written.

Main definitions:

* `Journal.shorten` — a reason that is not too long;
* `Journal.Entry`, `Journal.entry` — a note of a decision;
* `Journal.Entry.fields`, `Journal.Entry.line` — what is written of it.

Main results:

* `Journal.length_shorten_le` — a shortened reason is at most as long as the limit and the dots.
-/

import GitHooks.Text.Basic

set_option relaxedAutoImplicit false
set_option autoImplicit false

namespace GitHooks

namespace Journal

open Text

/-! ### Entries -/

/-- The characters of a reason that are kept. -/
def maxReason : Nat := 200

/-- A reason, cut where it is too long. -/
def shorten (reason : Text) : Text :=
  if reason.length ≤ maxReason then reason else reason.take maxReason ++ "..."

theorem length_shorten_le (reason : Text) : (shorten reason).length ≤ maxReason + 3 := by
  unfold shorten
  split
  · omega
  · rw [List.length_append, List.length_take]
    have : ("..." : Text).length = 3 := rfl
    omega

/-- A note of a decision. -/
structure Entry where
  hook : Text
  /-- The file that the decision is about; empty where it is about the whole run. -/
  file : Text
  decision : Text
  reason : Text
deriving DecidableEq, Repr, Inhabited

/-- The note of a decision and its reason. -/
def entry (hook file decision reason : Text) : Entry := ⟨hook, file, decision, shorten reason⟩

/-! ### Writing -/

/-- A text that is written under a name. -/
structure Field where
  name : Text
  content : Text
deriving DecidableEq, Repr, Inhabited

/-- What is written of an entry, in order. -/
def Entry.fields (entry : Entry) : List Field :=
  [.mk "hook_name" entry.hook, .mk "file" entry.file, .mk "decision" entry.decision]
    ++ if entry.reason.isEmpty then [] else [.mk "reason" entry.reason]

/-- The digits of a control character in an escape. -/
def hexDigits (n : Nat) : Text := [Nat.digitChar (n / 16), Nat.digitChar (n % 16)]

/-- A character between quotes. -/
def escaped (c : Char) : Text :=
  if c = '"' then "\\\""
  else if c = '\\' then "\\\\"
  else if c = '\x08' then "\\b"
  else if c = '\x0c' then "\\f"
  else if c = '\n' then "\\n"
  else if c = '\r' then "\\r"
  else if c = '\t' then "\\t"
  else if c.toNat < 0x20 then "\\u00" ++ hexDigits c.toNat
  else [c]

/-- A text in quotes. -/
def quoted (t : Text) : Text := '"' :: (t.flatMap escaped ++ ['"'])

/-- A field as it is written. -/
def Field.text (field : Field) : Text := quoted field.name ++ ":" ++ quoted field.content

/-- The line of the journal for an entry made at a moment. -/
def Entry.line (moment : Text) (entry : Entry) : Text :=
  let fields := Field.mk "timestamp" moment :: entry.fields
  '\x7b' :: (joinWith "," (fields.map Field.text) ++ ['\x7d'])

end Journal

end GitHooks

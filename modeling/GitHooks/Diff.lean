/-
**A line before and after.**

The change of a line is shown on two lines.  What both versions begin with and what the rest of
both ends with is left plain; what lies between is the change, and can be coloured.

Main definitions:

* `Diff.sharedLead`, `Diff.Parts`, `Diff.parts` — the two versions cut into plain and changed
  parts;
* `Diff.Colour`, `Diff.paint` — a text in a colour on a terminal;
* `Diff.render` — the two lines.

Main results:

* `Diff.parts_old`, `Diff.parts_new` — the parts put together are the two versions.
-/

import GitHooks.Text.Basic

set_option relaxedAutoImplicit false
set_option autoImplicit false

namespace GitHooks

namespace Diff

open Text

/-! ### Parts -/

/-- The longest text that two texts begin with. -/
def sharedLead : Text → Text → Text
  | c :: t, d :: u => if c = d then c :: sharedLead t u else []
  | _, _ => []

/-- The longest text that two texts end with. -/
def sharedTail (t u : Text) : Text := (sharedLead t.reverse u.reverse).reverse

/-- Two versions of a line, cut into what they share and what they do not. -/
structure Parts where
  lead : Text
  oldPart : Text
  newPart : Text
  tail : Text
deriving DecidableEq, Repr, Inhabited

/-- The parts of two versions of a line. -/
def parts (old new : Text) : Parts :=
  let lead := sharedLead old new
  let oldRest := old.drop lead.length
  let newRest := new.drop lead.length
  let tail := sharedTail oldRest newRest
  ⟨lead, oldRest.take (oldRest.length - tail.length), newRest.take (newRest.length - tail.length),
    tail⟩

theorem sharedLead_append_drop (t u : Text) :
    sharedLead t u ++ t.drop (sharedLead t u).length = t := by
  induction t generalizing u with
  | nil => simp [sharedLead]
  | cons c t ih =>
    cases u with
    | nil => simp [sharedLead]
    | cons d u => by_cases h : c = d <;> simp [sharedLead, h, ih]

theorem sharedLead_comm (t u : Text) : sharedLead t u = sharedLead u t := by
  induction t generalizing u with
  | nil => cases u <;> rfl
  | cons c t ih =>
    cases u with
    | nil => rfl
    | cons d u =>
      by_cases h : c = d
      · simp [sharedLead, h, ih]
      · simp [sharedLead, h, Ne.symm h]

theorem take_append_sharedTail (t u : Text) :
    t.take (t.length - (sharedTail t u).length) ++ sharedTail t u = t := by
  have h := congrArg List.reverse (sharedLead_append_drop t.reverse u.reverse)
  simp only [List.reverse_append, List.reverse_reverse, List.reverse_drop] at h
  simpa [sharedTail] using h

theorem parts_old (old new : Text) :
    (parts old new).lead ++ (parts old new).oldPart ++ (parts old new).tail = old := by
  simp only [parts, List.append_assoc, take_append_sharedTail, sharedLead_append_drop]

theorem sharedTail_comm (t u : Text) : sharedTail t u = sharedTail u t := by
  rw [sharedTail, sharedLead_comm, sharedTail]

theorem parts_new (old new : Text) :
    (parts old new).lead ++ (parts old new).newPart ++ (parts old new).tail = new := by
  simp only [parts, List.append_assoc, sharedTail_comm (old.drop _), take_append_sharedTail,
    sharedLead_comm old new, sharedLead_append_drop]

/-! ### Colours -/

/-- The colours that changes are shown in. -/
inductive Colour where
  | red
  | green
deriving DecidableEq, Repr, Inhabited

/-- The control sequence that turns a colour on. -/
def Colour.start : Colour → Text
  | red => "\x1b[31m"
  | green => "\x1b[32m"

/-- The control sequence that turns colours off. -/
def reset : Text := "\x1b[0m"

/-- A text in a colour; where the text turns colours off, the colour is turned on again. -/
def paint (colour : Colour) (t : Text) : Text :=
  colour.start ++ replaceAll reset (reset ++ colour.start) t ++ reset

/-- A changed part, in its colour where colours are in use. -/
def mark (coloured : Bool) (colour : Colour) (t : Text) : Text :=
  if coloured then paint colour t else t

/-! ### The two lines -/

/-- The two versions of a line, one below the other. -/
def render (coloured : Bool) (old new : Text) : Text :=
  let p := parts old new
  "  - " ++ p.lead ++ mark coloured .red p.oldPart ++ p.tail ++ "\n  + "
    ++ p.lead ++ mark coloured .green p.newPart ++ p.tail

end Diff

end GitHooks

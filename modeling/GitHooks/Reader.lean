/-
**Readers.**

A reader takes something from the beginning of a list of symbols and leaves the rest, or refuses.
Readers are put together in sequence by the notation for monads and as alternatives by the
notation for choice, where the second is tried on the whole list when the first refuses.  A
repetition ends where its reader refuses or takes nothing, so it needs no promise that it ends.

Main definitions:

* `Reader` — a reader of symbols;
* `Reader.next`, `Reader.only`, `Reader.peek?`, `Reader.finished` — single symbols and the end;
* `Reader.word`, `Reader.takeWhile` — runs of symbols;
* `Reader.many`, `Reader.separated` — repetitions;
* `Reader.run?` — what a reader that takes the whole list makes of it.
-/

import GitHooks.Text.Basic

set_option relaxedAutoImplicit false
set_option autoImplicit false

namespace GitHooks

/-- A reader of symbols of a kind. -/
abbrev Reader (σ α : Type) := StateT (List σ) Option α

namespace Reader

variable {σ α β : Type}

/-! ### Symbols -/

/-- The next symbol that satisfies `p`. -/
def next (p : σ → Bool) : Reader σ σ := fun symbols =>
  match symbols with
  | [] => none
  | s :: rest => if p s then some (s, rest) else none

/-- A given symbol. -/
def only [BEq σ] (symbol : σ) : Reader σ Unit := do let _ ← next (· == symbol)

/-- The next symbol, which is left where it is. -/
def peek? : Reader σ (Option σ) := fun symbols => some (symbols.head?, symbols)

/-- The end of the list. -/
def finished : Reader σ Unit := fun symbols => if symbols.isEmpty then some ((), []) else none

/-- Refuses unless a condition holds. -/
def require (condition : Bool) : Reader σ Unit := if condition then pure () else failure

/-- What an optional value holds. -/
def ofOption (value? : Option α) : Reader σ α :=
  match value? with
  | some value => pure value
  | none => failure

/-! ### Runs -/

/-- A given run of symbols. -/
def word [BEq σ] (symbols : List σ) : Reader σ Unit := fun all =>
  if symbols.isPrefixOf all then some ((), all.drop symbols.length) else none

/-- The longest run of symbols that satisfy `p`. -/
def takeWhile (p : σ → Bool) : Reader σ (List σ) := fun symbols =>
  some (symbols.takeWhile p, symbols.dropWhile p)

/-- The longest run of symbols that satisfy `p`, of which there is at least one. -/
def takeWhile1 (p : σ → Bool) : Reader σ (List σ) := do
  let taken ← takeWhile p
  require !taken.isEmpty
  return taken

/-- The longest run of symbols that satisfy `p`, dropped. -/
def skipWhile (p : σ → Bool) : Reader σ Unit := fun symbols => some ((), symbols.dropWhile p)

/-- Exactly `count` symbols that satisfy `p`. -/
def exactly (count : Nat) (p : σ → Bool) : Reader σ (List σ) := fun symbols =>
  let taken := symbols.take count
  if taken.length = count ∧ taken.all p then some (taken, symbols.drop count) else none

/-! ### Repetition -/

/-- What a reader takes one time after the other, and the symbols left. -/
def manyFrom (reader : Reader σ α) (symbols : List σ) : List α × List σ :=
  match reader symbols with
  | none => ([], symbols)
  | some (value, rest) =>
    if rest.length < symbols.length then
      let (values, left) := manyFrom reader rest
      (value :: values, left)
    else ([], symbols)
termination_by symbols.length

/-- What a reader takes one time after the other. -/
def many (reader : Reader σ α) : Reader σ (List α) := fun symbols => some (manyFrom reader symbols)

/-- One or more values with separators between them. -/
def separated (separator : Reader σ β) (reader : Reader σ α) : Reader σ (List α) := do
  let first ← reader
  let others ← many do
    let _ ← separator
    reader
  return first :: others

/-- What a reader takes, if it does not refuse. -/
def optional? (reader : Reader σ α) : Reader σ (Option α) := fun symbols =>
  match reader symbols with
  | some (value, rest) => some (some value, rest)
  | none => some (none, symbols)

/-! ### Whole lists -/

/-- What a reader that takes the whole list makes of it. -/
def run? (reader : Reader σ α) (symbols : List σ) : Option α :=
  match reader symbols with
  | some (value, []) => some value
  | _ => none

end Reader

end GitHooks

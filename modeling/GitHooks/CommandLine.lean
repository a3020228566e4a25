/-
**Command lines.**

The arguments of a hook are switches and operands, in any order.  A switch has a long name, may
have a letter, and may take a value.  Values follow in the same argument or in the next one; a next
argument that begins with a hyphen is a value only if it is that hyphen alone.  Letters may stand
together, where the rest behind one that takes a value is the value.  Behind `--` everything is an
operand.  Arguments are read from left to right, and the first that asks for help or for the
version, or that is not understood, ends the reading.

Main definitions:

* `CommandLine.Switch`, `CommandLine.Grammar` — what a command line may hold;
* `CommandLine.Given` — what one holds;
* `CommandLine.Stop` — why one is not carried out;
* `CommandLine.parse` — reading the arguments.
-/

import GitHooks.Entries

set_option relaxedAutoImplicit false
set_option autoImplicit false

namespace GitHooks

namespace CommandLine

open Text

/-! ### What a command line may hold -/

/-- A switch. -/
structure Switch where
  long : Text
  letter : Option Char
  takesValue : Bool
deriving DecidableEq, Repr, Inhabited

/-- How many operands there have to be. -/
inductive Operands where
  | any
  | one
deriving DecidableEq, Repr, Inhabited

/-- Two switches, by their long names, that exclude each other. -/
structure Conflict where
  left : Text
  right : Text
deriving DecidableEq, Repr, Inhabited

/-- What a command line may hold, apart from the requests for help and for the version. -/
structure Grammar where
  switches : List Switch
  conflicts : List Conflict
  operands : Operands
deriving DecidableEq, Repr, Inhabited

/-- What a command line holds. -/
structure Given where
  /-- The values of the switches, by long names; a switch without a value has an empty one. -/
  values : Entries Text
  operands : List Text
deriving DecidableEq, Repr, Inhabited

namespace Given

/-- The value given to a switch. -/
def value? (given : Given) (long : Text) : Option Text := Entries.get? long given.values

/-- Whether a switch is given. -/
def has (given : Given) (long : Text) : Bool := Entries.contains long given.values

end Given

/-- Why a command line is not carried out. -/
inductive Stop where
  | help
  | version
  | misuse
deriving DecidableEq, Repr, Inhabited

/-! ### Reading -/

/-- What has been read of a command line. -/
structure State where
  /-- The switch that waits for its value. -/
  pending : Option Text
  /-- Whether everything that follows is an operand. -/
  operandsOnly : Bool
  given : Given
deriving DecidableEq, Repr, Inhabited

/-- Nothing has been read. -/
def State.start : State := ⟨none, false, ⟨[], []⟩⟩

/-- Gives a value to a switch, which must not have one. -/
def State.give (state : State) (long value : Text) : Except Stop State :=
  if state.given.has long then .error .misuse
  else
    .ok { state with
      pending := none
      given := { state.given with values := Entries.insert long value state.given.values } }

/-- Adds an operand, if there may be one more. -/
def State.addOperand (grammar : Grammar) (state : State) (operand : Text) : Except Stop State :=
  if grammar.operands = .one ∧ state.given.operands ≠ [] then .error .misuse
  else
    .ok { state with given := { state.given with operands := state.given.operands ++ [operand] } }

/-- Reads what follows the two hyphens of a long name. -/
def readLong (grammar : Grammar) (state : State) (body : Text) : Except Stop State :=
  let (long, value) := match cutWhere? (· == '=') body with
    | some (long, value) => (long, some value)
    | none => (body, none)
  if long = "help" then .error (if value.isSome then .misuse else .help)
  else if long = "version" then .error (if value.isSome then .misuse else .version)
  else
    match grammar.switches.find? fun switch => switch.long = long with
    | none => .error .misuse
    | some switch =>
      match switch.takesValue, value with
      | true, some value => state.give long value
      | true, none => .ok { state with pending := some long }
      | false, some _ => .error .misuse
      | false, none => state.give long []

/-- Reads the letters behind a single hyphen. -/
def readLetters (grammar : Grammar) (state : State) : Text → Except Stop State
  | [] => .ok state
  | letter :: rest =>
    if letter = 'h' then .error .help
    else if letter = 'V' then .error .version
    else
      match grammar.switches.find? fun switch => switch.letter = some letter with
      | none => .error .misuse
      | some switch =>
        if !switch.takesValue then
          (state.give switch.long []).bind fun state => readLetters grammar state rest
        else if rest.isEmpty then .ok { state with pending := some switch.long }
        else state.give switch.long ((dropLeading? "=" rest).getD rest)

/-- Reads an argument that does not begin with a hyphen, or is nothing else. -/
def readPlain (grammar : Grammar) (state : State) (argument : Text) : Except Stop State :=
  match state.pending with
  | some long => state.give long argument
  | none => state.addOperand grammar argument

/-- Whether an argument is one or more switches. -/
def isSwitch (argument : Text) : Bool := startsWith argument "-" && argument ≠ "-"

/-- Reads one argument. -/
def step (grammar : Grammar) (state : State) (argument : Text) : Except Stop State :=
  if state.operandsOnly then state.addOperand grammar argument
  else if !isSwitch argument then readPlain grammar state argument
  else if state.pending.isSome then .error .misuse
  else
    match dropLeading? "--" argument with
    | some [] => .ok { state with operandsOnly := true }
    | some body => readLong grammar state body
    | none => readLetters grammar state (argument.drop 1)

/-- Whether two switches that exclude each other are both given. -/
def Given.violates (given : Given) (conflict : Conflict) : Bool :=
  given.has conflict.left && given.has conflict.right

/-- What has been given when all arguments are read. -/
def finish (grammar : Grammar) (state : State) : Except Stop Given :=
  let given := state.given
  if state.pending.isSome || grammar.conflicts.any given.violates
      || (grammar.operands = .one && given.operands.isEmpty) then
    .error .misuse
  else .ok given

/-- What the arguments of a command give. -/
def parse (grammar : Grammar) (arguments : List Text) : Except Stop Given :=
  (arguments.foldlM (step grammar) State.start).bind (finish grammar)

end CommandLine

end GitHooks

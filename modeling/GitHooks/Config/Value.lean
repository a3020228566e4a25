/-
**Values of a configuration.**

Every format that a configuration can be written in is read as one kind of table: entries sorted
by key whose values are texts, numbers, truth values, moments, lists and tables.

Main definitions:

* `Config.Value`, `Config.Table` — values and tables;
* `Config.Value.text?`, `Config.Value.boolean?`, `Config.Value.table?` — values of a kind;
* `Config.Value.integer?` — an integer that fits 64 bits with a sign;
* `Config.nested?` — the value of the entries of a nested table.
-/

import GitHooks.Binary64
import GitHooks.Config.Datetime
import GitHooks.Entries

set_option relaxedAutoImplicit false
set_option autoImplicit false

namespace GitHooks

namespace Config

/-- A value of a configuration. -/
inductive Value where
  | text (text : Text)
  | integer (n : Int)
  | float (x : Binary64)
  | boolean (b : Bool)
  | moment (moment : Datetime)
  | list (items : List Value)
  | table (entries : List (Text × Value))
deriving Repr, Inhabited

/-- A table: values by their keys. -/
abbrev Table := Entries Value

namespace Value

/-- The text that a value is. -/
def text? : Value → Option Text
  | text t => some t
  | _ => none

/-- The truth value that a value is. -/
def boolean? : Value → Option Bool
  | boolean b => some b
  | _ => none

/-- The table that a value is. -/
def table? : Value → Option Table
  | table entries => some entries
  | _ => none

/-- An integer as a value, if it fits 64 bits with a sign. -/
def integer? (n : Int) : Option Value :=
  if fitsSigned 64 n then some (integer n) else none

@[simp] theorem text?_text (t : Text) : (text t).text? = some t := rfl

@[simp] theorem boolean?_boolean (b : Bool) : (boolean b).boolean? = some b := rfl

@[simp] theorem table?_table (entries : Table) : (table entries).table? = some entries := rfl

end Value

/-! ### Nested tables -/

/-- The key under which a nested table stands for a moment. -/
def momentKey : Text := "$__toml_private_datetime"

/-- The moment that a text gives. -/
def moment? (t : Text) : Option Value :=
  (Reader.run? Datetime.reader t).map Value.moment

/-- Whether some keys are all different. -/
def distinct (keys : List Text) : Bool := keys.eraseDups.length == keys.length

/-- The value of the entries of a nested table, in the order in which they are written.  A key is
written once; an entry under the key for moments stands alone and is one. -/
def nested? (written : List (Text × Value)) : Option Value :=
  match written with
  | (key, value) :: rest =>
    if key = momentKey then if rest.isEmpty then value.text?.bind moment? else none
    else if distinct (written.map (·.1)) then some (.table (Entries.ofList written))
    else none
  | [] => some (.table [])

end Config

end GitHooks

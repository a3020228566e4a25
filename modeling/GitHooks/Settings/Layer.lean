/-
**Layers of settings.**

Settings come from the command line, a configuration file and a project file.  Each is a layer
that leaves unset what it does not mention; layers are put on top of each other, and the upper one
wins wherever it sets something.

Main definitions:

* `Settings.Block`, `Settings.Layer` — the settings of a language, and those of a source;
* `Settings.Block.or`, `Settings.Layer.or` — one layer on top of another;
* `Settings.Layer.ofTable` — the layer that a table spells out.

Main results:

* `Settings.Layer.or_empty`, `Settings.Layer.empty_or` — a layer that sets nothing changes nothing.
-/

import GitHooks.Config.Fault

set_option relaxedAutoImplicit false
set_option autoImplicit false

namespace GitHooks

namespace Settings

open Config (Fault Table Value)

/-! ### Layers -/

/-- The settings of one language. -/
structure Block where
  format : Option Text
  docstring : Option Bool
deriving DecidableEq, Repr, Inhabited

/-- The settings of one source. -/
@[ext] structure Layer where
  name : Option Text
  format : Option Text
  /-- The blocks of languages, by their tags. -/
  languages : Entries Block
  /-- Blocks are held in the order of their tags, each tag once. -/
  languages_sorted : Entries.Sorted languages
deriving DecidableEq, Repr

/-- One block on top of another. -/
def Block.or (upper lower : Block) : Block :=
  ⟨upper.format.or lower.format, upper.docstring.or lower.docstring⟩

/-- The block that sets nothing. -/
def Block.empty : Block := ⟨none, none⟩

namespace Layer

/-- The layer that sets nothing. -/
def empty : Layer :=
  { name := none, format := none, languages := [], languages_sorted := Entries.sorted_nil }

instance : Inhabited Layer := ⟨empty⟩

/-- One layer on top of another. -/
def or (upper lower : Layer) : Layer :=
  { name := upper.name.or lower.name
    format := upper.format.or lower.format
    languages := Entries.unionWith Block.or upper.languages lower.languages
    languages_sorted := Entries.sorted_unionWith lower.languages_sorted _ _ }

/-- A layer with the block of one language set. -/
def setBlock (layer : Layer) (tag : Text) (block : Block) : Layer :=
  { layer with
    languages := Entries.insert tag block layer.languages
    languages_sorted := Entries.sorted_insert layer.languages_sorted tag block }

theorem empty_or (layer : Layer) : empty.or layer = layer := by
  ext1 <;> simp [or, empty, Entries.unionWith]

theorem or_empty (layer : Layer) : layer.or empty = layer := by
  ext1
  · simp [or, empty]
  · simp [or, empty]
  · refine Entries.eq_of_get?_eq (layer.or empty).languages_sorted layer.languages_sorted ?_
    intro key
    simp only [or]
    rw [Entries.get?_unionWith layer.languages_sorted empty.languages_sorted]
    cases Entries.get? key layer.languages <;> simp [empty]

/-! ### Layers from tables -/

/-- The text that an option gives. -/
def textOf (option source : Text) (value : Value) : Except Fault Text :=
  match value.text? with
  | some text => .ok text
  | none => .error (.notAText option source)

/-- The truth value that an option gives. -/
def booleanOf (option source : Text) (value : Value) : Except Fault Bool :=
  match value.boolean? with
  | some b => .ok b
  | none => .error (.notABoolean option source)

/-- A block with one more option of the block of a language. -/
def addBlockOption (tag source : Text) (block : Block) (option : Text × Value) :
    Except Fault Block :=
  let path := Config.optionPath tag option.1
  if option.1 = "format" then
    (textOf path source option.2).map fun text => { block with format := some text }
  else if option.1 = "docstr" then
    (booleanOf path source option.2).map fun b => { block with docstring := some b }
  else .error (.unknownLanguageOption tag option.1 source)

/-- The block that the table of a language spells out. -/
def blockOf (tag source : Text) (value : Value) : Except Fault Block :=
  match value.table? with
  | some table => table.foldlM (addBlockOption tag source) Block.empty
  | none => .error (.notATable tag source)

/-- A layer with one more option. -/
def addOption (source : Text) (layer : Layer) (option : Text × Value) : Except Fault Layer :=
  if option.1 = "name" then
    (textOf option.1 source option.2).map fun text => { layer with name := some text }
  else if option.1 = "format" then
    (textOf option.1 source option.2).map fun text => { layer with format := some text }
  else if option.1 ∈ Language.tags then
    (blockOf option.1 source option.2).map fun block => layer.setBlock option.1 block
  else .error (.unknownOption option.1 source)

/-- The layer that a table from a source spells out; the first option that is not accepted, in the
order of keys, is the fault. -/
def ofTable (table : Table) (source : Text) : Except Fault Layer :=
  table.foldlM (addOption source) empty

end Layer

end Settings

end GitHooks

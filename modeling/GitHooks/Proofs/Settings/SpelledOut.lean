/-
**Layers spelled out as tables.**

A layer can be spelled out as a table: what it sets is an option, what it leaves unset is left out,
and every block of a language is a nested table, even if it sets nothing.  Reading this table gives
the layer back, and nothing is lost the other way either: a table that is accepted is the layer it
is read as, spelled out.  So no option is passed over in silence, however it is misspelt.

A table is accepted exactly when each of its options is.  What it sets can then be looked up in it,
since no key comes twice: every field of the layer is the value of one key.

Main definitions:

* `Settings.Block.toTable`, `Settings.Layer.toTable` — blocks and layers spelled out.

Main results:

* `Settings.Layer.exists_ofTable_iff` — the tables that are accepted;
* `Settings.Layer.name_of_ofTable`, `Settings.Layer.format_of_ofTable`,
  `Settings.Layer.languages_of_ofTable` — what an accepted table sets;
* `Settings.Layer.ofTable_toTable`, `Settings.Layer.toTable_of_ofTable` — spelling out and reading
  undo each other;
* `Settings.Layer.ofTable_exact` — what is accepted, and that nothing is lost.
-/

import GitHooks.Proofs.Settings.EitherFile
import GitHooks.Proofs.Settings.Faults

set_option relaxedAutoImplicit false
set_option autoImplicit false

namespace GitHooks

/-! ### Looking up in tables -/

namespace Entries

variable {α β γ : Type} {key : Text}

theorem get?_entry (k key : Text) (value? : Option α) (rest : Entries α) :
    get? key (entry k value? rest)
      = if k = key then value?.or (get? key rest) else get? key rest := by
  cases value? with
  | none => exact (ite_self _).symm
  | some value => exact get?_cons key k value rest

theorem get?_map_values (f : α → β) (key : Text) (entries : Entries α) :
    get? key (entries.map fun entry => (entry.1, f entry.2)) = (get? key entries).map f := by
  induction entries with
  | nil => rfl
  | cons head rest ih =>
      obtain ⟨k, value⟩ := head
      rw [List.map_cons, get?_cons, get?_cons, ih]
      split <;> rfl

theorem sorted_map_values {entries : Entries α} (h : Sorted entries) (f : α → β) :
    Sorted (entries.map fun entry => (entry.1, f entry.2)) := List.pairwise_map.2 h

/-- Where every step sets a field from the value of one key, or else leaves it alone, a fold over
entries sets it from the value of that key. -/
theorem field_of_foldlM {ε : Type} {step : β → Text × α → Except ε β} (field : β → Option γ)
    {found : α → Option γ} {entries : Entries α} (hsorted : Sorted entries)
    (hstep : ∀ before entry after, step before entry = .ok after →
      field after = (if entry.1 = key then found entry.2 else none).or (field before))
    {before after : β} (h : entries.foldlM step before = .ok after) :
    field after = ((get? key entries).bind found).or (field before) := by
  induction entries generalizing before with
  | nil => exact congrArg field (Except.ok.inj h).symm
  | cons head rest ih =>
      obtain ⟨k, value⟩ := head
      obtain ⟨hhead, hrest⟩ := List.pairwise_cons.1 hsorted
      rw [List.foldlM_cons] at h
      obtain ⟨next, hnext, hfold⟩ := Settings.exists_of_bind h
      rw [ih hrest hfold, hstep before (k, value) next hnext, get?_cons]
      by_cases hk : k = key
      · -- the key does not come again
        have hnone : get? key rest = none := get?_eq_none_of_lt fun e he => hk ▸ hhead e he
        rw [if_pos hk, if_pos hk, hnone]
        rfl
      · rw [if_neg hk, if_neg hk, Option.none_or]

end Entries

namespace Settings

open Config (Fault Table Value)

variable {table entries : Table} {source tag : Text} {value : Value} {layer : Layer} {block : Block}

/-! ### Tables that are accepted -/

/-- Where it does not depend on what was read before whether an item is accepted, a fold succeeds
exactly when every item is. -/
theorem exists_foldlM_iff {ε α β : Type} {step : β → α → Except ε β} {P : α → Prop}
    (hstep : ∀ b a, (∃ next, step b a = .ok next) ↔ P a) (items : List α) (b : β) :
    (∃ after, items.foldlM step b = .ok after) ↔ ∀ a ∈ items, P a := by
  induction items generalizing b with
  | nil => exact iff_of_true ⟨b, rfl⟩ (by simp)
  | cons a rest ih =>
      rw [List.forall_mem_cons, ← hstep b a, List.foldlM_cons]
      constructor
      · rintro ⟨after, h⟩
        obtain ⟨next, hnext, hfold⟩ := exists_of_bind h
        exact ⟨⟨next, hnext⟩, (ih next).1 ⟨after, hfold⟩⟩
      · rintro ⟨⟨next, hnext⟩, hrest⟩
        rw [hnext]
        exact (ih next).2 hrest

namespace Layer

theorem exists_addBlockOption_iff {option : Text × Value} :
    (∃ after, addBlockOption tag source block option = .ok after) ↔ IsBlockOption option := by
  constructor
  · rintro ⟨after, h⟩
    exact (addBlockOption_eq_ok h source).1
  · obtain ⟨key, value⟩ := option
    rintro (⟨rfl, t, rfl⟩ | ⟨rfl, b, rfl⟩)
    · exact ⟨_, addBlockOption_eq_ok_iff.2 (.format t)⟩
    · exact ⟨_, addBlockOption_eq_ok_iff.2 (.docstring b)⟩

theorem exists_blockOf_iff : (∃ block, blockOf tag source value = .ok block)
    ↔ ∃ entries, value = .table entries ∧ ∀ option ∈ entries, IsBlockOption option := by
  constructor
  · rintro ⟨block, h⟩
    exact (blockOf_eq_ok h source).1
  · rintro ⟨entries, rfl, hoptions⟩
    exact (exists_foldlM_iff (P := IsBlockOption) (fun _ _ => exists_addBlockOption_iff)
      entries _).2 hoptions

theorem exists_addOption_iff {option : Text × Value} :
    (∃ next, addOption source layer option = .ok next) ↔ IsOption option := by
  constructor
  · rintro ⟨next, h⟩
    exact (addOption_eq_ok h source).1
  · obtain ⟨key, value⟩ := option
    rintro (⟨rfl | rfl, t, rfl⟩ | ⟨htag, hblock⟩)
    · exact ⟨_, addOption_eq_ok_iff.2 (.name t)⟩
    · exact ⟨_, addOption_eq_ok_iff.2 (.format t)⟩
    · obtain ⟨block, h⟩ := exists_blockOf_iff.2 hblock
      exact ⟨_, addOption_eq_ok_iff.2 (.block htag h)⟩

/-- **A table is accepted** exactly when each of its options is. -/
theorem exists_ofTable_iff :
    (∃ layer, ofTable table source = .ok layer) ↔ ∀ option ∈ table, IsOption option :=
  exists_foldlM_iff (P := IsOption) (fun _ _ => exists_addOption_iff) table empty

end Layer

/-! ### What is set -/

/-- The format that a block of options sets is the value of one key. -/
theorem Block.format_of_blockOf (hsorted : Entries.Sorted entries)
    (h : Layer.blockOf tag source (.table entries) = .ok block) :
    block.format = (Entries.get? "format" entries).bind Value.text? := by
  have hstep : ∀ before option after,
      Layer.addBlockOption tag source before option = .ok after → after.format
        = (if option.1 = "format" then option.2.text? else none).or before.format := by
    intro before option after hafter
    cases Layer.addBlockOption_eq_ok_iff.1 hafter <;> rfl
  rw [Entries.field_of_foldlM Block.format hsorted hstep h]
  exact Option.or_none

theorem Block.docstring_of_blockOf (hsorted : Entries.Sorted entries)
    (h : Layer.blockOf tag source (.table entries) = .ok block) :
    block.docstring = (Entries.get? "docstr" entries).bind Value.boolean? := by
  have hstep : ∀ before option after,
      Layer.addBlockOption tag source before option = .ok after → after.docstring
        = (if option.1 = "docstr" then option.2.boolean? else none).or before.docstring := by
    intro before option after hafter
    cases Layer.addBlockOption_eq_ok_iff.1 hafter <;> rfl
  rw [Entries.field_of_foldlM Block.docstring hsorted hstep h]
  exact Option.or_none

namespace Layer

/-- The block that a value gives. -/
def blockOf? (tag source : Text) (value : Value) : Option Block :=
  if Language.tags.contains tag then (blockOf tag source value).toOption else none

theorem blockOf?_eq_none (htag : tag ∉ Language.tags) (value : Value) :
    blockOf? tag source value = none := if_neg fun h => htag (List.contains_iff_mem.1 h)

theorem blockOf?_eq_some (htag : tag ∈ Language.tags) (h : blockOf tag source value = .ok block) :
    blockOf? tag source value = some block := by
  rw [blockOf?, if_pos (List.contains_iff_mem.2 htag), h]
  rfl

/-- The name that a table sets is the value of one key. -/
theorem name_of_ofTable (hsorted : Entries.Sorted table) (h : ofTable table source = .ok layer) :
    layer.name = (Entries.get? "name" table).bind Value.text? := by
  have hstep : ∀ before option after, addOption source before option = .ok after → after.name
      = (if option.1 = "name" then option.2.text? else none).or before.name := by
    intro before option after hafter
    cases addOption_eq_ok_iff.1 hafter with
    | name t => rfl
    | format t => rfl
    | @block tag value block htag hblock =>
        have hne : tag ≠ "name" := fun heq => not_mem_tags.1 (heq ▸ htag)
        rw [if_neg hne]
        rfl
  rw [Entries.field_of_foldlM Layer.name hsorted hstep h]
  exact Option.or_none

theorem format_of_ofTable (hsorted : Entries.Sorted table) (h : ofTable table source = .ok layer) :
    layer.format = (Entries.get? "format" table).bind Value.text? := by
  have hstep : ∀ before option after, addOption source before option = .ok after → after.format
      = (if option.1 = "format" then option.2.text? else none).or before.format := by
    intro before option after hafter
    cases addOption_eq_ok_iff.1 hafter with
    | name t => rfl
    | format t => rfl
    | @block tag value block htag hblock =>
        have hne : tag ≠ "format" := fun heq => not_mem_tags.2 (heq ▸ htag)
        rw [if_neg hne]
        rfl
  rw [Entries.field_of_foldlM Layer.format hsorted hstep h]
  exact Option.or_none

/-- The block of a language that a table sets is the value of its tag. -/
theorem languages_of_ofTable (hsorted : Entries.Sorted table)
    (h : ofTable table source = .ok layer) (tag : Text) :
    Entries.get? tag layer.languages = (Entries.get? tag table).bind (blockOf? tag source) := by
  have hstep : ∀ before option after, addOption source before option = .ok after →
      Entries.get? tag after.languages
        = (if option.1 = tag then blockOf? tag source option.2 else none).or
          (Entries.get? tag before.languages) := by
    intro before option after hafter
    cases addOption_eq_ok_iff.1 hafter with
    | name t =>
        have hnone : blockOf? "name" source (.text t) = none := blockOf?_eq_none not_mem_tags.1 _
        split
        · next hkey => rw [← hkey, hnone, Option.none_or]
        · rw [Option.none_or]
    | format t =>
        have hnone : blockOf? "format" source (.text t) = none := blockOf?_eq_none not_mem_tags.2 _
        split
        · next hkey => rw [← hkey, hnone, Option.none_or]
        · rw [Option.none_or]
    | @block other value block htag hblock =>
        have hsome : blockOf? other source value = some block := blockOf?_eq_some htag hblock
        rw [setBlock, Entries.get?_insert before.languages_sorted]
        split
        · next hkey => rw [← hkey, hsome, Option.some_or]
        · rw [Option.none_or]
  rw [Entries.field_of_foldlM (fun layer => Entries.get? tag layer.languages) hsorted hstep h]
  exact Option.or_none

end Layer

/-! ### Spelling out -/

/-- A block spelled out: what it leaves unset is left out. -/
def Block.toTable (block : Block) : Table :=
  Entries.entry "docstr" (block.docstring.map .boolean)
    (Entries.entry "format" (block.format.map .text) [])

/-- A layer spelled out: what it leaves unset is left out, and every block is a nested table. -/
def Layer.toTable (layer : Layer) : Table :=
  Entries.alter "name" (fun _ => layer.name.map .text)
    (Entries.alter "format" (fun _ => layer.format.map .text)
      (layer.languages.map fun entry => (entry.1, .table entry.2.toTable)))

theorem Block.sorted_toTable (block : Block) : Entries.Sorted block.toTable := by
  obtain ⟨format, docstring⟩ := block
  rw [Entries.Sorted]
  cases format <;> cases docstring <;> simp [toTable, Entries.entry]
  decide

theorem Block.get?_toTable (block : Block) (key : Text) : Entries.get? key block.toTable
    = if key = "docstr" then block.docstring.map .boolean
      else if key = "format" then block.format.map .text else none := by
  have hne : ("docstr" : Text) ≠ "format" := by decide
  rw [toTable, Entries.get?_entry, Entries.get?_entry, Entries.get?_nil, Option.or_none]
  simp only [eq_comm (b := key)]
  split
  · next hkey => rw [if_neg (hkey ▸ hne), Option.or_none]
  · rfl

namespace Layer

theorem sorted_toTable (layer : Layer) : Entries.Sorted layer.toTable := by
  have hsorted := Entries.sorted_map_values layer.languages_sorted fun block =>
    Value.table block.toTable
  exact Entries.sorted_alter (Entries.sorted_alter hsorted _ _) _ _

theorem get?_toTable (layer : Layer) (key : Text) : Entries.get? key layer.toTable
    = if key = "name" then layer.name.map .text
      else if key = "format" then layer.format.map .text
      else (Entries.get? key layer.languages).map fun block => .table block.toTable := by
  have hsorted := Entries.sorted_map_values layer.languages_sorted fun block =>
    Value.table block.toTable
  have hlanguages := Entries.get?_map_values (fun block => Value.table (Block.toTable block)) key
    layer.languages
  rw [toTable, Entries.get?_alter (Entries.sorted_alter hsorted _ _), Entries.get?_alter hsorted,
    hlanguages]
  simp only [eq_comm (b := key)]

end Layer

/-! ### Reading what is spelled out -/

namespace Layer

/-- **A block that is spelled out is read back.** -/
theorem blockOf_toTable (tag source : Text) (block : Block) :
    blockOf tag source (.table block.toTable) = .ok block := by
  obtain ⟨format, docstring⟩ := block
  cases format <;> cases docstring <;> rfl

/-- What a layer with blocks for known languages is spelled out as is accepted. -/
theorem isOption_of_mem_toTable (hknown : layer.Known) {option : Text × Value}
    (h : option ∈ layer.toTable) : IsOption option := by
  obtain ⟨key, value⟩ := option
  rw [Entries.mem_iff_get? layer.sorted_toTable, get?_toTable] at h
  split at h
  · next hname =>
    obtain ⟨t, -, rfl⟩ := Option.map_eq_some_iff.1 h
    exact .inl ⟨.inl hname, t, rfl⟩
  · split at h
    · next hformat =>
      obtain ⟨t, -, rfl⟩ := Option.map_eq_some_iff.1 h
      exact .inl ⟨.inr hformat, t, rfl⟩
    · obtain ⟨block, hblock, rfl⟩ := Option.map_eq_some_iff.1 h
      exact .inr ⟨hknown key block hblock,
        exists_blockOf_iff.1 ⟨block, blockOf_toTable key key block⟩⟩

/-- **A layer that is spelled out is read back.** -/
theorem ofTable_toTable (hknown : layer.Known) (source : Text) :
    ofTable layer.toTable source = .ok layer := by
  obtain ⟨after, hafter⟩ : ∃ after, ofTable layer.toTable source = .ok after :=
    exists_ofTable_iff.2 fun option => isOption_of_mem_toTable hknown
  have hsorted := layer.sorted_toTable
  have hsame : after = layer := by
    ext1
    · rw [name_of_ofTable hsorted hafter, get?_toTable, if_pos rfl]
      cases layer.name <;> rfl
    · rw [format_of_ofTable hsorted hafter, get?_toTable, if_neg (by decide), if_pos rfl]
      cases layer.format <;> rfl
    · refine Entries.eq_of_get?_eq after.languages_sorted layer.languages_sorted fun tag => ?_
      rw [languages_of_ofTable hsorted hafter, get?_toTable]
      by_cases htag : tag ∈ Language.tags
      · have hname : tag ≠ "name" := fun heq => not_mem_tags.1 (heq ▸ htag)
        have hformat : tag ≠ "format" := fun heq => not_mem_tags.2 (heq ▸ htag)
        rw [if_neg hname, if_neg hformat]
        cases hblock : Entries.get? tag layer.languages with
        | none => rfl
        | some block =>
            rw [Option.map_some, Option.bind_some,
              blockOf?_eq_some htag (blockOf_toTable tag source block)]
      · have hnone : Entries.get? tag layer.languages = none := by
          rw [Option.eq_none_iff_forall_ne_some]
          exact fun block hblock => htag (hknown tag block hblock)
        rw [hnone, Option.bind_eq_none_iff]
        exact fun value _ => blockOf?_eq_none htag value
  rw [hafter, hsame]

end Layer

/-! ### Spelling out what was read -/

/-- Where a key has no other values than texts, its value is told by the text. -/
theorem map_text_bind_text? {value? : Option Value} (h : ∀ value ∈ value?, ∃ t, value = .text t) :
    (value?.bind Value.text?).map Value.text = value? := by
  cases value? with
  | none => rfl
  | some value =>
      obtain ⟨t, rfl⟩ := h value rfl
      rfl

theorem map_boolean_bind_boolean? {value? : Option Value}
    (h : ∀ value ∈ value?, ∃ b, value = .boolean b) :
    (value?.bind Value.boolean?).map Value.boolean = value? := by
  cases value? with
  | none => rfl
  | some value =>
      obtain ⟨b, rfl⟩ := h value rfl
      rfl

/-- **The options of a block that is accepted** are the block, spelled out. -/
theorem Block.toTable_of_blockOf (hsorted : Entries.Sorted entries)
    (h : Layer.blockOf tag source (.table entries) = .ok block) : block.toTable = entries := by
  obtain ⟨_, heq, hoptions⟩ := Layer.exists_blockOf_iff.1 ⟨block, h⟩
  obtain rfl := Value.table.inj heq
  have hoption : ∀ key value, Entries.get? key entries = some value → IsBlockOption (key, value) :=
    fun key value hget => hoptions _ ((Entries.mem_iff_get? hsorted).2 hget)
  refine Entries.eq_of_get?_eq block.sorted_toTable hsorted fun key => ?_
  rw [get?_toTable, format_of_blockOf hsorted h, docstring_of_blockOf hsorted h]
  split
  · next hkey =>
    subst hkey
    refine map_boolean_bind_boolean? fun value hvalue => ?_
    rcases hoption _ value hvalue with ⟨hformat, -⟩ | ⟨-, b, hb⟩
    · have hne : ("docstr" : Text) ≠ "format" := by decide
      exact absurd hformat hne
    · exact ⟨b, hb⟩
  · next hdocstring =>
    split
    · next hkey =>
      subst hkey
      refine map_text_bind_text? fun value hvalue => ?_
      rcases hoption _ value hvalue with ⟨-, t, ht⟩ | ⟨hdocstring', -⟩
      · exact ⟨t, ht⟩
      · exact absurd hdocstring' hdocstring
    · next hformat =>
      rw [eq_comm, Option.eq_none_iff_forall_ne_some]
      intro value hvalue
      rcases hoption _ value hvalue with ⟨hkey, -⟩ | ⟨hkey, -⟩
      · exact hformat hkey
      · exact hdocstring hkey

namespace Layer

/-- **A table that is accepted** is the layer it is read as, spelled out. -/
theorem toTable_of_ofTable (hsorted : Entries.Sorted table)
    (hblocks : ∀ tag entries, (tag, .table entries) ∈ table → Entries.Sorted entries)
    (h : ofTable table source = .ok layer) : layer.toTable = table := by
  have hoption : ∀ key value, Entries.get? key table = some value → IsOption (key, value) :=
    fun key value hget => exists_ofTable_iff.1 ⟨layer, h⟩ _ ((Entries.mem_iff_get? hsorted).2 hget)
  refine Entries.eq_of_get?_eq layer.sorted_toTable hsorted fun key => ?_
  rw [get?_toTable, name_of_ofTable hsorted h, format_of_ofTable hsorted h,
    languages_of_ofTable hsorted h]
  split
  · next hkey =>
    subst hkey
    refine map_text_bind_text? fun value hvalue => ?_
    rcases hoption _ value hvalue with ⟨-, t, ht⟩ | ⟨htag, -⟩
    · exact ⟨t, ht⟩
    · exact absurd htag not_mem_tags.1
  · next hname =>
    split
    · next hkey =>
      subst hkey
      refine map_text_bind_text? fun value hvalue => ?_
      rcases hoption _ value hvalue with ⟨-, t, ht⟩ | ⟨htag, -⟩
      · exact ⟨t, ht⟩
      · exact absurd htag not_mem_tags.2
    · next hformat =>
      cases hget : Entries.get? key table with
      | none => rfl
      | some value =>
          rcases hoption key value hget with ⟨hkey | hkey, -⟩ | ⟨htag, entries, rfl, hbelow⟩
          · exact absurd hkey hname
          · exact absurd hkey hformat
          · obtain ⟨block, hblock⟩ : ∃ block, blockOf key source (.table entries) = .ok block :=
              exists_blockOf_iff.2 ⟨entries, rfl, hbelow⟩
            have hentries := hblocks key entries ((Entries.mem_iff_get? hsorted).2 hget)
            rw [Option.bind_some, blockOf?_eq_some htag hblock]
            exact congrArg (fun entries => some (Value.table entries))
              (Block.toTable_of_blockOf hentries hblock)

/-- **Nothing is accepted but settings, and no setting is lost.**  A table is accepted exactly when
each of its keys is that of a text, or the tag of a language with a table whose keys are those of a
text and of a truth value; a layer with blocks for known languages is what is read of the table that
spells it out; and a table that is accepted is what the layer read of it is spelled out as. -/
theorem ofTable_exact :
    (∀ (table : Table) (source : Text),
      (∃ layer, ofTable table source = .ok layer) ↔ ∀ option ∈ table, IsOption option)
    ∧ (∀ (layer : Layer) (source : Text),
      layer.Known → ofTable layer.toTable source = .ok layer)
    ∧ ∀ (table : Table) (source : Text) (layer : Layer), Entries.Sorted table →
      (∀ tag entries, (tag, .table entries) ∈ table → Entries.Sorted entries) →
      ofTable table source = .ok layer → layer.toTable = table :=
  ⟨fun _ _ => exists_ofTable_iff, fun _ source hknown => ofTable_toTable hknown source,
    fun _ _ _ hsorted hblocks h => toTable_of_ofTable hsorted hblocks h⟩

/-- A name, a block that sets nothing, and one that sets a truth value alone. -/
def sparse : Layer :=
  { (empty.setBlock "python" Block.empty).setBlock "rust" ⟨none, some false⟩ with
    name := some "Ada" }

theorem known_sparse : sparse.Known := by
  intro tag block h
  have hmem : (tag, block) ∈ sparse.languages := (Entries.mem_iff_get? sparse.languages_sorted).2 h
  have hall : ∀ entry ∈ sparse.languages, entry.1 ∈ Language.tags := by decide
  exact hall _ hmem

/-- The same as a table. -/
def sparseTable : Table :=
  [("name", .text "Ada"), ("python", .table []), ("rust", .table [("docstr", .boolean false)])]

/-- Every key comes once in the table, and in its blocks. -/
theorem sorted_sparseTable : Entries.Sorted sparseTable
    ∧ ∀ tag entries, (tag, .table entries) ∈ sparseTable → Entries.Sorted entries := by
  refine ⟨by rw [Entries.Sorted]; decide, fun tag entries hmem => ?_⟩
  simp only [sparseTable, List.mem_cons, Prod.mk.injEq, Value.table.injEq, reduceCtorEq, and_false,
    List.not_mem_nil, or_false, false_or] at hmem
  rcases hmem with ⟨-, rfl⟩ | ⟨-, rfl⟩
  · exact List.Pairwise.nil
  · exact List.pairwise_singleton _ _

/-- A block that sets nothing is there when the layer is read back. -/
theorem ofTable_exact_sparse : sparse.Known ∧ sparse.toTable = sparseTable
    ∧ ofTable sparseTable "pyproject.toml" = .ok sparse := by
  have hread := ofTable_exact.2.1 sparse "pyproject.toml" known_sparse
  exact ⟨known_sparse, ofTable_exact.2.2 sparseTable "pyproject.toml" sparse sorted_sparseTable.1
    sorted_sparseTable.2 hread, hread⟩

end Layer

end Settings

end GitHooks

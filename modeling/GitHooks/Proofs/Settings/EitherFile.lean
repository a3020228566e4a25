/-
**The same settings from either project file.**

A project can keep the settings of a tool as nested tables or as sections in INI form.  A table that
is accepted as settings has texts at its top, and below it tables of texts and truth values for
languages; all of this can be written in INI form, as long as the texts can.  So the section of the
tool in one file is the section in the other.  Whether a table is accepted, and what it sets, does
not depend on the file it was found in.

Main definitions:

* `Settings.IsOption`, `Settings.IsBlockOption` — the options of tables that are accepted;
* `Settings.textsOf` — the texts in a table.

Main results:

* `Settings.Layer.options_of_ofTable` — what is known of a table that is accepted;
* `Settings.isWritableTable_of_ofTable` — such a table can be written, if its texts can;
* `Settings.either_project_file` — both files give the same table and the same settings.
-/

import GitHooks.Proofs.Config.Gathered
import GitHooks.Proofs.Settings.Options
import GitHooks.Settings.Resolved

set_option relaxedAutoImplicit false
set_option autoImplicit false

namespace GitHooks

namespace Settings

open Config (Fault Table Value)

variable {table : Table} {source : Text} {layer : Layer}

/-! ### Options that are accepted -/

/-- Options of the block of a language. -/
def IsBlockOption (option : Text × Value) : Prop :=
  (option.1 = ("format" : Text) ∧ ∃ t, option.2 = .text t)
    ∨ (option.1 = ("docstr" : Text) ∧ ∃ b, option.2 = .boolean b)

/-- Options of a table of settings. -/
def IsOption (option : Text × Value) : Prop :=
  ((option.1 = ("name" : Text) ∨ option.1 = ("format" : Text)) ∧ ∃ t, option.2 = .text t)
    ∨ (option.1 ∈ Language.tags
      ∧ ∃ block, option.2 = .table block ∧ ∀ below ∈ block, IsBlockOption below)

/-- Where every step that succeeds tells something of its item and succeeds in the same way among
other steps, a fold that succeeds does so too. -/
theorem foldlM_eq_ok {ε α β : Type} {step step' : β → α → Except ε β} {P : α → Prop}
    (hstep : ∀ b a b', step b a = .ok b' → P a ∧ step' b a = .ok b') {items : List α} {b after : β}
    (h : items.foldlM step b = .ok after) :
    (∀ a ∈ items, P a) ∧ items.foldlM step' b = .ok after := by
  induction items generalizing b with
  | nil => exact ⟨by simp, h⟩
  | cons a rest ih =>
      rw [List.foldlM_cons] at h
      cases hfirst : step b a with
      | error error => rw [hfirst] at h; cases h
      | ok next =>
          rw [hfirst] at h
          obtain ⟨ha, hnext⟩ := hstep b a next hfirst
          obtain ⟨hrest, hfold⟩ := ih h
          refine ⟨List.forall_mem_cons.2 ⟨ha, hrest⟩, ?_⟩
          rw [List.foldlM_cons, hnext]
          exact hfold

namespace Layer

theorem addBlockOption_eq_ok {tag : Text} {block block' : Block} {option : Text × Value}
    (h : addBlockOption tag source block option = .ok block') (source' : Text) :
    IsBlockOption option ∧ addBlockOption tag source' block option = .ok block' := by
  rw [addBlockOption_eq_ok_iff] at h ⊢
  refine ⟨?_, h⟩
  cases h with
  | format t => exact .inl ⟨rfl, t, rfl⟩
  | docstring b => exact .inr ⟨rfl, b, rfl⟩

theorem blockOf_eq_ok {tag : Text} {value : Value} {block : Block}
    (h : blockOf tag source value = .ok block) (source' : Text) :
    (∃ entries, value = .table entries ∧ ∀ option ∈ entries, IsBlockOption option)
      ∧ blockOf tag source' value = .ok block := by
  cases value with
  | table entries =>
      have hstep : ∀ before option after, addBlockOption tag source before option = .ok after →
          IsBlockOption option ∧ addBlockOption tag source' before option = .ok after :=
        fun _ _ _ hafter => addBlockOption_eq_ok hafter source'
      obtain ⟨hoptions, hblock⟩ := foldlM_eq_ok hstep h
      exact ⟨⟨entries, rfl, hoptions⟩, hblock⟩
  | text _ => cases h
  | integer _ => cases h
  | float _ => cases h
  | boolean _ => cases h
  | moment _ => cases h
  | list _ => cases h

theorem addOption_eq_ok {layer' : Layer} {option : Text × Value}
    (h : addOption source layer option = .ok layer') (source' : Text) :
    IsOption option ∧ addOption source' layer option = .ok layer' := by
  rw [addOption_eq_ok_iff] at h ⊢
  cases h with
  | name t => exact ⟨.inl ⟨.inl rfl, t, rfl⟩, .name t⟩
  | format t => exact ⟨.inl ⟨.inr rfl, t, rfl⟩, .format t⟩
  | block htag hblock =>
      obtain ⟨hvalue, hblock'⟩ := blockOf_eq_ok hblock source'
      exact ⟨.inr ⟨htag, hvalue⟩, .block htag hblock'⟩

/-- **A table that is accepted** has options of settings only, and sets the same wherever it was
found. -/
theorem options_of_ofTable (h : ofTable table source = .ok layer) (source' : Text) :
    (∀ option ∈ table, IsOption option) ∧ ofTable table source' = .ok layer := by
  have hstep : ∀ before option after, addOption source before option = .ok after →
      IsOption option ∧ addOption source' before option = .ok after :=
    fun _ _ _ hafter => addOption_eq_ok hafter source'
  exact foldlM_eq_ok hstep h

end Layer

/-! ### Writing accepted tables -/

/-- The texts in a table and in the tables nested in it. -/
def textsOf (table : Table) : List Text :=
  table.flatMap fun option =>
    match option.2 with
    | .text t => [t]
    | .table block => block.filterMap fun below => below.2.text?
    | _ => []

theorem mem_textsOf {key t : Text} (h : (key, .text t) ∈ table) : t ∈ textsOf table :=
  List.mem_flatMap.2 ⟨_, h, List.mem_singleton.2 rfl⟩

theorem mem_textsOf_block {tag key t : Text} {block : Table} (hblock : (tag, .table block) ∈ table)
    (h : (key, .text t) ∈ block) : t ∈ textsOf table :=
  List.mem_flatMap.2 ⟨_, hblock, List.mem_filterMap.2 ⟨_, h, rfl⟩⟩

theorem isKey_of_mem : ∀ key ∈ [("name" : Text), "format", "docstr"], Config.Ini.IsKey key := by
  decide

theorem isName_of_mem_tags : ∀ tag ∈ Language.tags, Config.IsName tag := by
  decide

/-- **A table that is accepted can be written**, if its texts can. -/
theorem isWritableTable_of_ofTable (hsorted : Entries.Sorted table)
    (hblocks : ∀ tag block, (tag, .table block) ∈ table → Entries.Sorted block)
    (h : Layer.ofTable table source = .ok layer)
    (htexts : ∀ t ∈ textsOf table, Config.Ini.IsWritableText t) :
    Config.IsWritableTable table where
  sorted := hsorted
  blocks := hblocks
  options := by
    rintro ⟨key, value⟩ hmem hnone
    rcases (Layer.options_of_ofTable h source).1 _ hmem with ⟨hkey, t, rfl⟩ | ⟨-, block, rfl, -⟩
    · refine ⟨isKey_of_mem key ?_, htexts t (mem_textsOf hmem)⟩
      rcases hkey with rfl | rfl <;> simp
    · cases hnone
  names := by
    intro key block hmem
    rcases (Layer.options_of_ofTable h source).1 _ hmem with ⟨-, t, ht⟩ | ⟨htag, -⟩
    · cases ht
    · exact isName_of_mem_tags key htag
  blockOptions := by
    rintro tag block hmem ⟨key, value⟩ hoption
    rcases (Layer.options_of_ofTable h source).1 _ hmem with ⟨-, t, ht⟩ | ⟨-, block', heq, hbelow⟩
    · cases ht
    · obtain rfl := Value.table.inj heq
      rcases hbelow _ hoption with ⟨rfl, t, rfl⟩ | ⟨rfl, b, rfl⟩
      · exact ⟨isKey_of_mem _ (by simp), htexts t (mem_textsOf_block hmem hoption)⟩
      · exact ⟨isKey_of_mem _ (by simp), trivial⟩

/-! ### Two files -/

/-- **Both project files give the same table and the same settings.**  The table stands in a
document of nested tables, and it is spread over a document in INI form, in any order and among any
other sections. -/
theorem either_project_file {content : Text} {own : List (Text × Table)} {document tools : Table}
    (hsorted : Entries.Sorted table)
    (hblocks : ∀ tag block, (tag, .table block) ∈ table → Entries.Sorted block)
    (haccepted : Layer.ofTable table source = .ok layer)
    (htexts : ∀ t ∈ textsOf table, Config.Ini.IsWritableText t)
    (hown : own.Perm (Config.sectionsOf toolName table))
    (hcontent : Config.Ini.Document toolName own (Text.lines content))
    (htools : Entries.get? "tool" document = some (.table tools))
    (htable : Entries.get? toolName tools = some (.table table)) :
    (∃ sections, Config.Ini.parse content = .ok sections
      ∧ Config.iniSection? sections toolName = some table)
    ∧ Config.nestedSection? document toolName = some table
    ∧ ∀ source', Layer.ofTable table source' = .ok layer := by
  have hwritable := isWritableTable_of_ofTable hsorted hblocks haccepted htexts
  refine ⟨Config.iniSection?_of_document (by decide) hwritable hown hcontent, ?_, ?_⟩
  · rw [Config.nestedSection?, htools, Option.bind_some, Config.Value.table?_table,
      Option.bind_some, htable]
    rfl
  · exact fun source' => (Layer.options_of_ofTable haccepted source').2

/-- A name of two lines and a block for a language. -/
def twoLines : Table :=
  [("name", .text "Ada\nLovelace"), ("python", .table [("docstr", .boolean true)])]

/-- The same in INI form, the block first and a section of another tool in between. -/
def twoLinesText : Text :=
  "[tool.add_copyright.python]\ndocstr = true\n\n[metadata]\nversion: 1\n  beta\n" ++
  "[tool.add_copyright]\nname = Ada\n    Lovelace\n"

theorem document_twoLines : Config.Ini.Document toolName
    [(Config.subsectionOf toolName "python", [("docstr", .boolean true)]),
      (Config.Ini.sectionOf toolName, [("name", .text "Ada\nLovelace")])]
    (Text.lines twoLinesText) := by
  have hpython : Config.Ini.WrittenOptions [("docstr", .boolean true)] ["docstr = true", ""] :=
    .option (.boolean true) (.ignored rfl .nil)
  have hmetadata : Config.Ini.Body false ["version: 1", "  beta"] :=
    .option (Or.inl rfl) rfl (.continued rfl rfl (.nil true))
  have hname : Config.Ini.WrittenOptions [("name", .text "Ada\nLovelace")]
      ["name = Ada", "    Lovelace"] :=
    .option (.text rfl (.cons ⟨rfl, rfl⟩ .nil)) .nil
  have hlines : Text.lines twoLinesText
      = ("[" ++ Config.subsectionOf toolName "python" ++ "]")
        :: ((["docstr = true", ""] : List Text) ++ ("[metadata]" : Text)
          :: ((["version: 1", "  beta"] : List Text)
            ++ ("[" ++ Config.Ini.sectionOf toolName ++ "]")
              :: ((["name = Ada", "    Lovelace"] : List Text) ++ []))) := by decide +kernel
  have hother : ¬ Config.Ini.IsSectionOf toolName "metadata" := by decide
  rw [hlines]
  exact .own (.refl _) hpython (.other rfl rfl hother hmetadata (.own (.refl _) hname .nil))

theorem either_project_file_two_lines :
    ∃ layer, Layer.ofTable twoLines "pyproject.toml" = .ok layer
      ∧ (∃ sections, Config.Ini.parse twoLinesText = .ok sections
        ∧ Config.iniSection? sections toolName = some twoLines)
      ∧ Config.nestedSection? [("tool", .table [(toolName, .table twoLines)])] toolName
        = some twoLines
      ∧ ∀ source', Layer.ofTable twoLines source' = .ok layer := by
  have hsorted : Entries.Sorted twoLines := by
    rw [Entries.Sorted]
    decide
  have hblocks : ∀ tag block, (tag, .table block) ∈ twoLines → Entries.Sorted block := by
    intro tag block hmem
    have hpair : tag = ("python" : Text) ∧ block = [(("docstr" : Text), .boolean true)] := by
      simpa [twoLines] using hmem
    rw [hpair.2]
    exact List.pairwise_singleton _ _
  have htexts : ∀ t ∈ textsOf twoLines, Config.Ini.IsWritableText t := by
    intro t ht
    obtain rfl : t = "Ada\nLovelace" := List.mem_singleton.1 ht
    exact Or.inr ⟨"Ada", ["Lovelace"], rfl, by decide, by decide, by decide, by decide⟩
  obtain ⟨layer, hlayer⟩ : ∃ layer, Layer.ofTable twoLines "pyproject.toml" = .ok layer := ⟨_, rfl⟩
  exact ⟨layer, hlayer, either_project_file hsorted hblocks hlayer htexts (.swap _ _ [])
    document_twoLines rfl rfl⟩

end Settings

end GitHooks

/-
**What keeps settings from coming into force.**

Settings are found out once, before any file is looked at.  A step of this fails exactly where one
of the steps it is made of fails, so what can go wrong is read off the steps: a file of settings
that cannot be read, a table that is not accepted, a section in both project files, no name, or a
format without a placeholder.  Each of these is a fault whatever the others are, and without any of
them there are settings.

A format is at fault only if it may be used.  It is enough to look at the formats of the languages
that are known: every block of a layer that has been accepted is the block of one of them.

Main definitions:

* `Fails` — steps that fail;
* `Settings.IsSource`, `Settings.Spells` — the files of settings, and the tables in them;
* `Settings.MayBeUsed` — the formats that may be used;
* `Settings.Faulty` — what keeps settings from coming into force.

Main results:

* `Settings.fails_projectLayer_iff`, `Settings.fails_dedicatedLayer_iff` — when a layer is missing;
* `Settings.fails_resolve_iff` — when layers do not make settings;
* `Settings.faulty_iff` — there are no settings exactly where there is a fault.
-/

import GitHooks.Proofs.Entries
import GitHooks.Proofs.Settings.Options
import GitHooks.Proofs.Settings.Precedence

set_option relaxedAutoImplicit false
set_option autoImplicit false

namespace GitHooks

open Text

/-! ### Steps that fail -/

section Fails

variable {ε ε' α β : Type}

/-- A step that fails. -/
def Fails (step : Except ε α) : Prop := ∃ error, step = .error error

theorem not_fails_iff {step : Except ε α} : ¬ Fails step ↔ ∃ a, step = .ok a := by
  cases step with
  | error error => exact iff_of_false (fun h => h ⟨error, rfl⟩) (fun ⟨_, h⟩ => nomatch h)
  | ok a => exact iff_of_true (fun ⟨_, h⟩ => nomatch h) ⟨a, rfl⟩

theorem not_fails_ok (a : α) : ¬ Fails (.ok a : Except ε α) := not_fails_iff.2 ⟨a, rfl⟩

/-- An error of two steps is one of the first, or one of the second behind it. -/
theorem bind_eq_error_iff {first : Except ε α} {next : α → Except ε β} {error : ε} :
    first.bind next = .error error
      ↔ first = .error error ∨ ∃ a, first = .ok a ∧ next a = .error error := by
  cases first with
  | error other => simp [Except.bind]
  | ok a => simp [Except.bind]

/-- Two steps fail where the first does, or the second behind it. -/
theorem fails_bind_iff {first : Except ε α} {next : α → Except ε β} :
    Fails (first.bind next) ↔ Fails first ∨ ∃ a, first = .ok a ∧ Fails (next a) := by
  simp only [Fails, bind_eq_error_iff, exists_or]
  refine or_congr_right ⟨?_, ?_⟩
  · rintro ⟨error, a, ha, h⟩
    exact ⟨a, ha, error, h⟩
  · rintro ⟨a, ha, error, h⟩
    exact ⟨error, a, ha, h⟩

theorem fails_map_iff {step : Except ε α} {f : α → β} : Fails (step.map f) ↔ Fails step := by
  cases step with
  | error error => exact iff_of_true ⟨error, rfl⟩ ⟨error, rfl⟩
  | ok a => exact iff_of_false (not_fails_ok _) (not_fails_ok _)

theorem fails_mapError_iff {step : Except ε α} {f : ε → ε'} :
    Fails (step.mapError f) ↔ Fails step := by
  cases step with
  | error error => exact iff_of_true ⟨f error, rfl⟩ ⟨error, rfl⟩
  | ok a => exact iff_of_false (not_fails_ok _) (not_fails_ok _)

end Fails

namespace Settings

open Config (Table)

variable {tree : FileTree} {directory : Location} {explicit identity : Option Text} {root : Text}
  {commandLine dedicated project : Layer}

/-! ### Sections of project files -/

/-- The files of a project are asked one after the other, and both may not have a section. -/
theorem readSection_eq (tree : FileTree) (directory : Location) (root tool : Text) :
    Config.readSection tree directory root tool
      = (Config.sectionIn tree directory root tool (("pyproject.toml" : Text),
          Config.nestedSection?)).bind fun first =>
        (Config.sectionIn tree directory root tool (("setup.cfg" : Text),
          Config.iniSection?)).bind fun second =>
        match first, second with
        | some part, some other =>
          .error (.configuration (.ambiguous tool [part.source, other.source]))
        | some part, none => .ok (some part)
        | none, found => .ok found := by
  rw [Config.readSection, Config.projectFiles, List.mapM_cons, List.mapM_cons, List.mapM_nil]
  cases Config.sectionIn tree directory root tool (("pyproject.toml" : Text),
      Config.nestedSection?) with
  | error error => rfl
  | ok first =>
      cases Config.sectionIn tree directory root tool (("setup.cfg" : Text),
          Config.iniSection?) with
      | error error => rfl
      | ok second => cases first <;> cases second <;> rfl

theorem forall_mem_projectFiles {P : Text × (Table → Text → Option Table) → Prop} :
    (∀ file ∈ Config.projectFiles, P file)
      ↔ P (("pyproject.toml" : Text), Config.nestedSection?)
        ∧ P (("setup.cfg" : Text), Config.iniSection?) := by
  simp [Config.projectFiles]

theorem exists_mem_projectFiles {P : Text × (Table → Text → Option Table) → Prop} :
    (∃ file ∈ Config.projectFiles, P file)
      ↔ P (("pyproject.toml" : Text), Config.nestedSection?)
        ∨ P (("setup.cfg" : Text), Config.iniSection?) := by
  simp [Config.projectFiles]

/-- What the files of a project give: a fault of one of them, a section in both, a section in one of
them, or none. -/
theorem readSection_cases (tree : FileTree) (directory : Location) (root tool : Text) :
    (Fails (Config.readSection tree directory root tool)
        ∧ ((∃ file ∈ Config.projectFiles, Fails (Config.sectionIn tree directory root tool file))
          ∨ ∀ file ∈ Config.projectFiles,
            ∃ part, Config.sectionIn tree directory root tool file = .ok (some part)))
      ∨ ∃ found, Config.readSection tree directory root tool = .ok found
        ∧ (∀ file ∈ Config.projectFiles, ∃ found',
            Config.sectionIn tree directory root tool file = .ok found')
        ∧ (∃ file ∈ Config.projectFiles, Config.sectionIn tree directory root tool file = .ok none)
        ∧ ∀ part, found = some part ↔ ∃ file ∈ Config.projectFiles,
            Config.sectionIn tree directory root tool file = .ok (some part) := by
  rw [readSection_eq, exists_mem_projectFiles, exists_mem_projectFiles, forall_mem_projectFiles,
    forall_mem_projectFiles]
  simp only [exists_mem_projectFiles]
  cases Config.sectionIn tree directory root tool (("pyproject.toml" : Text),
      Config.nestedSection?) with
  | error error => exact .inl ⟨⟨error, rfl⟩, .inl (.inl ⟨error, rfl⟩)⟩
  | ok first =>
      cases Config.sectionIn tree directory root tool (("setup.cfg" : Text),
          Config.iniSection?) with
      | error error => exact .inl ⟨⟨error, rfl⟩, .inl (.inr ⟨error, rfl⟩)⟩
      | ok second =>
          cases first with
          | none =>
              exact .inr ⟨second, rfl, ⟨⟨_, rfl⟩, ⟨_, rfl⟩⟩, .inl rfl, fun part => by simp⟩
          | some part =>
              cases second with
              | none =>
                  exact .inr ⟨some part, rfl, ⟨⟨_, rfl⟩, ⟨_, rfl⟩⟩, .inr rfl, fun other => by simp⟩
              | some other => exact .inl ⟨⟨_, rfl⟩, .inr ⟨⟨_, rfl⟩, ⟨_, rfl⟩⟩⟩

/-- A project file is at fault where it is there and cannot be read as a table. -/
theorem fails_sectionIn_iff {tool : Text} {file : Text × (Table → Text → Option Table)} :
    Fails (Config.sectionIn tree directory root tool file)
      ↔ tree.isFile directory (Path.join root file.1) = true
        ∧ Fails (Config.readTable tree directory (Path.join root file.1)) := by
  simp only [Config.sectionIn]
  cases hfile : tree.isFile directory (Path.join root file.1) with
  | false => exact iff_of_false (not_fails_ok _) fun h => Bool.noConfusion h.1
  | true =>
      rw [if_pos rfl]
      refine fails_bind_iff.trans ⟨?_, fun h => .inl h.2⟩
      rintro (h | ⟨table, -, h⟩)
      · exact ⟨rfl, h⟩
      · exact absurd h (not_fails_ok _)

/-! ### Layers of files -/

/-- The layer of the project files. -/
def projectLayer (tree : FileTree) (directory : Location) (root : Text) : Except HookError Layer :=
  (Config.readSection tree directory root toolName).bind fun found =>
    match found with
    | none => .ok Layer.empty
    | some part => layerOf part.table part.source

/-- The layers of files are the one of the configuration file, on top of the one of the project. -/
theorem load_eq (tree : FileTree) (directory : Location) (explicit : Option Text) (root : Text) :
    load tree directory explicit root
      = (dedicatedLayer tree directory explicit root).bind fun dedicated =>
        (projectLayer tree directory root).bind fun project => .ok (dedicated.or project) := by
  rw [load, projectLayer]
  cases dedicatedLayer tree directory explicit root with
  | error error => rfl
  | ok dedicated =>
      cases Config.readSection tree directory root toolName with
      | error error => rfl
      | ok found =>
          cases found with
          | none => exact congrArg Except.ok (Layer.or_empty dedicated).symm
          | some part => rfl

/-- The configuration file gives no layer where it cannot be read, or its table is not accepted. -/
theorem fails_dedicatedLayer_iff :
    Fails (dedicatedLayer tree directory explicit root)
      ↔ ∃ path, dedicatedPath? tree directory explicit root = some path
        ∧ (Fails (Config.readTable tree directory path)
          ∨ ∃ table, Config.readTable tree directory path = .ok table
            ∧ Fails (layerOf table path)) := by
  rw [dedicatedLayer]
  cases dedicatedPath? tree directory explicit root with
  | none => exact iff_of_false (not_fails_ok _) fun ⟨_, h, _⟩ => nomatch h
  | some path =>
      refine fails_bind_iff.trans ⟨fun h => ⟨path, rfl, h⟩, ?_⟩
      rintro ⟨path', hpath, h⟩
      rw [Option.some.inj hpath]
      exact h

/-- The project files give no layer where one of them is at fault, where both have a section, or
where the table of the section is not accepted. -/
theorem fails_projectLayer_iff :
    Fails (projectLayer tree directory root)
      ↔ (∃ file ∈ Config.projectFiles, Fails (Config.sectionIn tree directory root toolName file))
        ∨ (∀ file ∈ Config.projectFiles, ∃ part,
          Config.sectionIn tree directory root toolName file = .ok (some part))
        ∨ ∃ file ∈ Config.projectFiles, ∃ part,
          Config.sectionIn tree directory root toolName file = .ok (some part)
            ∧ Fails (layerOf part.table part.source) := by
  rw [projectLayer, fails_bind_iff]
  rcases readSection_cases tree directory root toolName with
    ⟨hfails, hcause⟩ | ⟨found, hfound, hall, ⟨bare, hbare, hnone⟩, hsection⟩
  · exact iff_of_true (.inl hfails) (hcause.imp_right .inl)
  · constructor
    · rintro (h | ⟨found', hfound', h⟩)
      · rw [hfound] at h
        exact absurd h (not_fails_ok _)
      · obtain rfl := Except.ok.inj (hfound.symm.trans hfound')
        cases found with
        | none => exact absurd h (not_fails_ok _)
        | some part =>
            obtain ⟨file, hfile, hpart⟩ := (hsection part).1 rfl
            exact .inr (.inr ⟨file, hfile, part, hpart, h⟩)
    · rintro (⟨file, hfile, h⟩ | hboth | ⟨file, hfile, part, hpart, h⟩)
      · exact absurd h (not_fails_iff.2 (hall file hfile))
      · -- one of the files has no section
        obtain ⟨part, hpart⟩ := hboth bare hbare
        exact absurd (hnone.symm.trans hpart) (by simp)
      · obtain rfl := (hsection part).2 ⟨file, hfile, hpart⟩
        exact .inr ⟨_, hfound, h⟩

/-! ### Blocks of known languages -/

/-- A layer with blocks for known languages only. -/
def Layer.Known (layer : Layer) : Prop :=
  ∀ tag block, Entries.get? tag layer.languages = some block → tag ∈ Language.tags

theorem known_empty : Layer.empty.Known := fun _ _ h => nomatch h

theorem known_addOption {source : Text} {layer layer' : Layer} {option : Text × Config.Value}
    (hlayer : layer.Known) (h : Layer.addOption source layer option = .ok layer') :
    layer'.Known := by
  cases Layer.addOption_eq_ok_iff.1 h with
  | name t => exact hlayer
  | format t => exact hlayer
  | block htag hblock =>
      intro tag other hother
      rw [Layer.setBlock, Entries.get?_insert layer.languages_sorted] at hother
      split at hother
      · next heq => exact heq ▸ htag
      · exact hlayer tag other hother

/-- A layer that has been accepted has blocks for known languages only. -/
theorem known_of_layerOf {table : Table} {source : Text} {layer : Layer}
    (h : layerOf table source = .ok layer) : layer.Known := by
  -- every option keeps to known languages
  have hfold : ∀ (options : Table) (before : Layer), before.Known →
      options.foldlM (Layer.addOption source) before = .ok layer → layer.Known := by
    intro options
    induction options with
    | nil =>
        intro before hbefore hdone
        exact Except.ok.inj hdone ▸ hbefore
    | cons option rest ih =>
        intro before hbefore hdone
        rw [List.foldlM_cons] at hdone
        obtain ⟨next, hnext, hrest⟩ := exists_of_bind hdone
        exact ih next (known_addOption hbefore hnext) hrest
  refine hfold table Layer.empty known_empty ?_
  cases htable : Layer.ofTable table source with
  | error fault =>
      rw [layerOf, htable] at h
      exact nomatch h
  | ok layer' =>
      rw [layerOf, htable] at h
      rw [← Except.ok.inj h]
      exact htable

theorem known_dedicatedLayer (h : dedicatedLayer tree directory explicit root = .ok dedicated) :
    dedicated.Known := by
  rw [dedicatedLayer] at h
  split at h
  · obtain ⟨table, -, hlayer⟩ := exists_of_bind h
    exact known_of_layerOf hlayer
  · exact Except.ok.inj h ▸ known_empty

theorem known_projectLayer (h : projectLayer tree directory root = .ok project) :
    project.Known := by
  obtain ⟨found, -, hlayer⟩ := exists_of_bind h
  cases found with
  | none => exact Except.ok.inj hlayer ▸ known_empty
  | some part => exact known_of_layerOf hlayer

theorem Layer.Known.of_formatOf? {layer : Layer} {tag format : Text} (hlayer : layer.Known)
    (h : layer.formatOf? tag = some format) : tag ∈ Language.tags := by
  obtain ⟨block, hblock, -⟩ := Option.bind_eq_some_iff.1 h
  exact hlayer tag block hblock

/-! ### Formats -/

variable {format : Text}

/-- Whether a format lacks a placeholder. -/
def LacksSlot (format : Text) : Prop :=
  ∃ slot ∈ [NoticeFormat.nameSlot, NoticeFormat.yearSlot], occursIn slot format = false

theorem fails_checkFormat_iff : Fails (checkFormat format) ↔ LacksSlot format := by
  rw [checkFormat, fails_mapError_iff]
  cases hcheck : NoticeFormat.check format with
  | ok _ =>
      obtain ⟨hname, hyear⟩ := NoticeFormat.check_eq_ok_iff.1 hcheck
      exact iff_of_false (not_fails_ok _) (by simp [LacksSlot, hname, hyear])
  | error fault =>
      refine iff_of_true ⟨fault, rfl⟩ ?_
      cases hname : occursIn NoticeFormat.nameSlot format with
      | false => exact ⟨_, List.mem_cons_self, hname⟩
      | true =>
          cases hyear : occursIn NoticeFormat.yearSlot format with
          | false => exact ⟨_, List.mem_cons_of_mem _ List.mem_cons_self, hyear⟩
          | true =>
              rw [NoticeFormat.check_eq_ok_iff.2 ⟨hname, hyear⟩] at hcheck
              cases hcheck

theorem fails_checkBlocks_iff {languages : Entries Block} :
    Fails (checkBlocks languages) ↔ ∃ tag block format, (tag, block) ∈ languages
      ∧ block.format = some format ∧ LacksSlot format := by
  induction languages with
  | nil => exact iff_of_false (not_fails_ok ()) (by simp)
  | cons entry rest ih =>
      obtain ⟨tag, block⟩ := entry
      rw [checkBlocks_cons]
      cases hformat : block.format with
      | none =>
          simp only [ih, List.mem_cons, Prod.mk.injEq]
          constructor
          · rintro ⟨tag', block', format, hmem, h⟩
            exact ⟨tag', block', format, .inr hmem, h⟩
          · rintro ⟨tag', block', format, ⟨rfl, rfl⟩ | hmem, hblock, h⟩
            · rw [hformat] at hblock
              exact nomatch hblock
            · exact ⟨tag', block', format, hmem, hblock, h⟩
      | some format =>
          simp only [fails_bind_iff, fails_checkFormat_iff, ih, List.mem_cons, Prod.mk.injEq]
          constructor
          · rintro (h | ⟨-, -, tag', block', format', hmem, h⟩)
            · exact ⟨tag, block, format, .inl ⟨rfl, rfl⟩, hformat, h⟩
            · exact ⟨tag', block', format', .inr hmem, h⟩
          · rintro ⟨tag', block', format', ⟨rfl, rfl⟩ | hmem, hblock, h⟩
            · obtain rfl := Option.some.inj (hformat.symm.trans hblock)
              exact .inl h
            · by_cases hlacks : LacksSlot format
              · exact .inl hlacks
              · obtain ⟨u, hu⟩ := not_fails_iff.1 (mt fails_checkFormat_iff.1 hlacks)
                exact .inr ⟨u, hu, tag', block', format', hmem, hblock, h⟩

/-- The blocks of a layer are refused where a format in one of them lacks a placeholder. -/
theorem fails_checkBlocks_layer_iff (layer : Layer) :
    Fails (checkBlocks layer.languages)
      ↔ ∃ tag format, layer.formatOf? tag = some format ∧ LacksSlot format := by
  rw [fails_checkBlocks_iff]
  constructor
  · rintro ⟨tag, block, format, hmem, hformat, h⟩
    refine ⟨tag, format, ?_, h⟩
    rw [Layer.formatOf?, (Entries.mem_iff_get? layer.languages_sorted).1 hmem]
    exact hformat
  · rintro ⟨tag, format, hformat, h⟩
    obtain ⟨block, hblock, hformat⟩ := Option.bind_eq_some_iff.1 hformat
    exact ⟨tag, block, format, (Entries.mem_iff_get? layer.languages_sorted).2 hblock, hformat, h⟩

/-- The formats that may be used: the one for all languages, or the standard one where there is
none; and, unless the command line gives one, the one in the block of a language.  The former counts
even if every language has a block with a format. -/
inductive MayBeUsed (commandLine dedicated project : Layer) : Text → Prop where
  | forAll : MayBeUsed commandLine dedicated project
      (([commandLine.format, dedicated.format, project.format].findSome? id).getD
        NoticeFormat.standard)
  | inBlock {language : Language} {format : Text} (hlanguage : language ∈ Language.all)
      (hcommand : commandLine.format = none)
      (hblock : [dedicated.formatOf? language.tag, project.formatOf? language.tag].findSome? id
        = some format) : MayBeUsed commandLine dedicated project format

/-- A format that may be used is the one for all languages, or one in a block of the layers on top
of each other. -/
theorem exists_mayBeUsed_iff (hblocks : commandLine.languages = []) (hdedicated : dedicated.Known)
    (hproject : project.Known) (P : Text → Prop) :
    (∃ format, MayBeUsed commandLine dedicated project format ∧ P format)
      ↔ P ((commandLine.or (dedicated.or project)).format.getD NoticeFormat.standard)
        ∨ commandLine.format = none ∧ ∃ tag format,
          (commandLine.or (dedicated.or project)).formatOf? tag = some format ∧ P format := by
  have hall : (commandLine.or (dedicated.or project)).format
      = [commandLine.format, dedicated.format, project.format].findSome? id := by
    simp only [Layer.or, findSome?_id_cons, List.findSome?_nil, Option.or_none]
  have hblock : ∀ tag, (commandLine.or (dedicated.or project)).formatOf? tag
      = [dedicated.formatOf? tag, project.formatOf? tag].findSome? id := by
    intro tag
    rw [Layer.formatOf?_or, Layer.formatOf?_or, Layer.formatOf?_of_nil hblocks]
    simp only [findSome?_id_cons, List.findSome?_nil, Option.or_none, Option.none_or]
  simp only [hall, hblock]
  constructor
  · rintro ⟨format, hused, h⟩
    cases hused with
    | forAll => exact .inl h
    | inBlock _ hcommand hformat => exact .inr ⟨hcommand, _, format, hformat, h⟩
  · rintro (h | ⟨hcommand, tag, format, hformat, h⟩)
    · exact ⟨_, .forAll, h⟩
    · -- the block is that of a known language
      have htag : tag ∈ Language.tags := by
        obtain ⟨found, hfound, hsome⟩ := List.exists_of_findSome?_eq_some hformat
        rcases List.mem_cons.1 hfound with rfl | hfound
        · exact hdedicated.of_formatOf? hsome
        · obtain rfl := List.mem_singleton.1 hfound
          exact hproject.of_formatOf? hsome
      obtain ⟨language, hlanguage, rfl⟩ := List.mem_map.1 htag
      exact ⟨format, .inBlock hlanguage hcommand hformat, h⟩

/-! ### Layers that do not make settings -/

/-- Layers on top of each other do not make settings where no source gives a name, or a format that
may be used lacks a placeholder. -/
theorem fails_resolve_iff (hblocks : commandLine.languages = []) (hdedicated : dedicated.Known)
    (hproject : project.Known) :
    Fails (resolve commandLine (dedicated.or project) identity)
      ↔ (∀ name ∈ [commandLine.name, dedicated.name, project.name, identity], name = none)
        ∨ ∃ format, MayBeUsed commandLine dedicated project format ∧ LacksSlot format := by
  have hname : (commandLine.or (dedicated.or project)).name.or identity = none
      ↔ ∀ name ∈ [commandLine.name, dedicated.name, project.name, identity], name = none := by
    simp [Layer.or, and_assoc]
  rw [resolve_eq, exists_mayBeUsed_iff hblocks hdedicated hproject, ← hname]
  cases (commandLine.or (dedicated.or project)).name.or identity with
  | none => exact iff_of_true ⟨_, rfl⟩ (.inl rfl)
  | some name =>
      simp only [fails_bind_iff, fails_checkFormat_iff, reduceCtorEq, false_or]
      by_cases hformat : LacksSlot
          ((commandLine.or (dedicated.or project)).format.getD NoticeFormat.standard)
      · exact iff_of_true (.inl hformat) (.inl hformat)
      · obtain ⟨u, hu⟩ := not_fails_iff.1 (mt fails_checkFormat_iff.1 hformat)
        cases hcommand : commandLine.format with
        | some given =>
            simp [hformat, not_fails_ok]
        | none =>
            simp [hformat, hu, not_fails_ok, fails_checkBlocks_layer_iff]

/-! ### Faults -/

/-- The files of settings: the configuration file, and the project files that are there. -/
def IsSource (tree : FileTree) (directory : Location) (explicit : Option Text) (root path : Text) :
    Prop :=
  dedicatedPath? tree directory explicit root = some path
    ∨ ∃ file ∈ Config.projectFiles, path = Path.join root file.1
      ∧ tree.isFile directory path = true

/-- The tables of settings and the files they are from: the table of the configuration file, and the
sections of project files. -/
inductive Spells (tree : FileTree) (directory : Location) (explicit : Option Text) (root : Text) :
    Table → Text → Prop where
  | configurationFile {path : Text} {table : Table}
      (hpath : dedicatedPath? tree directory explicit root = some path)
      (htable : Config.readTable tree directory path = .ok table) :
      Spells tree directory explicit root table path
  | projectFile {file : Text × (Table → Text → Option Table)} {part : Config.Section}
      (hfile : file ∈ Config.projectFiles)
      (hpart : Config.sectionIn tree directory root toolName file = .ok (some part)) :
      Spells tree directory explicit root part.table part.source

/-- What keeps settings from coming into force. -/
inductive Faulty (tree : FileTree) (directory : Location) (explicit : Option Text) (root : Text)
    (commandLine : Layer) (identity : Option Text) : Prop where
  /-- A file of settings cannot be read as a table. -/
  | unreadable {path : Text} (hsource : IsSource tree directory explicit root path)
      (h : Fails (Config.readTable tree directory path))
  /-- A table of settings is not accepted. -/
  | rejected {table : Table} {source : Text}
      (hspells : Spells tree directory explicit root table source)
      (h : Fails (layerOf table source))
  /-- Both project files have a section. -/
  | ambiguous (h : ∀ file ∈ Config.projectFiles, ∃ part,
      Config.sectionIn tree directory root toolName file = .ok (some part))
  /-- No source gives a name. -/
  | nameless {dedicated project : Layer}
      (hdedicated : dedicatedLayer tree directory explicit root = .ok dedicated)
      (hproject : projectLayer tree directory root = .ok project)
      (h : ∀ name ∈ [commandLine.name, dedicated.name, project.name, identity], name = none)
  /-- A format that may be used lacks a placeholder. -/
  | incomplete {dedicated project : Layer} {format : Text}
      (hdedicated : dedicatedLayer tree directory explicit root = .ok dedicated)
      (hproject : projectLayer tree directory root = .ok project)
      (hused : MayBeUsed commandLine dedicated project format) (h : LacksSlot format)

/-- A layer of files is missing exactly where a file cannot be read, a table is not accepted, or
both project files have a section. -/
theorem fails_layers_iff :
    (Fails (dedicatedLayer tree directory explicit root)
        ∨ Fails (projectLayer tree directory root))
      ↔ (∃ path, IsSource tree directory explicit root path
          ∧ Fails (Config.readTable tree directory path))
        ∨ (∃ table source, Spells tree directory explicit root table source
          ∧ Fails (layerOf table source))
        ∨ ∀ file ∈ Config.projectFiles, ∃ part,
          Config.sectionIn tree directory root toolName file = .ok (some part) := by
  rw [fails_dedicatedLayer_iff, fails_projectLayer_iff]
  constructor
  · rintro (⟨path, hpath, h | ⟨table, htable, h⟩⟩
      | ⟨file, hfile, h⟩ | hboth | ⟨file, hfile, part, hpart, h⟩)
    · exact .inl ⟨path, .inl hpath, h⟩
    · exact .inr (.inl ⟨table, path, .configurationFile hpath htable, h⟩)
    · obtain ⟨hthere, h⟩ := fails_sectionIn_iff.1 h
      exact .inl ⟨_, .inr ⟨file, hfile, rfl, hthere⟩, h⟩
    · exact .inr (.inr hboth)
    · exact .inr (.inl ⟨part.table, part.source, .projectFile hfile hpart, h⟩)
  · rintro (⟨path, hsource, h⟩ | ⟨table, source, hspells, h⟩ | hboth)
    · rcases hsource with hpath | ⟨file, hfile, rfl, hthere⟩
      · exact .inl ⟨path, hpath, .inl h⟩
      · exact .inr (.inl ⟨file, hfile, fails_sectionIn_iff.2 ⟨hthere, h⟩⟩)
    · cases hspells with
      | configurationFile hpath htable => exact .inl ⟨source, hpath, .inr ⟨table, htable, h⟩⟩
      | projectFile hfile hpart => exact .inr (.inr (.inr ⟨_, hfile, _, hpart, h⟩))
    · exact .inr (.inr (.inl hboth))

/-- There are no settings where a layer is missing, or where both are there and do not make any. -/
theorem fails_settings_iff :
    Fails ((load tree directory explicit root).bind fun files =>
        resolve commandLine files identity)
      ↔ (Fails (dedicatedLayer tree directory explicit root)
          ∨ Fails (projectLayer tree directory root))
        ∨ ∃ dedicated project, dedicatedLayer tree directory explicit root = .ok dedicated
          ∧ projectLayer tree directory root = .ok project
          ∧ Fails (resolve commandLine (dedicated.or project) identity) := by
  rw [load_eq]
  cases dedicatedLayer tree directory explicit root with
  | error error => exact iff_of_true ⟨error, rfl⟩ (.inl (.inl ⟨error, rfl⟩))
  | ok dedicated =>
      cases projectLayer tree directory root with
      | error error => exact iff_of_true ⟨error, rfl⟩ (.inl (.inr ⟨error, rfl⟩))
      | ok project =>
          constructor
          · exact fun h => .inr ⟨dedicated, project, rfl, rfl, h⟩
          · rintro ((h | h) | ⟨dedicated', project', hdedicated, hproject, h⟩)
            · exact absurd h (not_fails_ok _)
            · exact absurd h (not_fails_ok _)
            · rw [Except.ok.inj hdedicated, Except.ok.inj hproject]
              exact h

/-- **There are no settings exactly where there is a fault.** -/
theorem faulty_iff (hblocks : commandLine.languages = []) :
    Fails ((load tree directory explicit root).bind fun files =>
        resolve commandLine files identity)
      ↔ Faulty tree directory explicit root commandLine identity := by
  have hresolve : ∀ {dedicated project : Layer},
      dedicatedLayer tree directory explicit root = .ok dedicated →
      projectLayer tree directory root = .ok project →
      (Fails (resolve commandLine (dedicated.or project) identity)
        ↔ (∀ name ∈ [commandLine.name, dedicated.name, project.name, identity], name = none)
          ∨ ∃ format, MayBeUsed commandLine dedicated project format ∧ LacksSlot format) :=
    fun hdedicated hproject => fails_resolve_iff hblocks (known_dedicatedLayer hdedicated)
      (known_projectLayer hproject)
  rw [fails_settings_iff, fails_layers_iff]
  constructor
  · rintro ((⟨_, hsource, h⟩ | ⟨_, _, hspells, h⟩ | hboth) | ⟨_, _, hdedicated, hproject, h⟩)
    · exact .unreadable hsource h
    · exact .rejected hspells h
    · exact .ambiguous hboth
    · rcases (hresolve hdedicated hproject).1 h with hnames | ⟨format, hused, h⟩
      · exact .nameless hdedicated hproject hnames
      · exact .incomplete hdedicated hproject hused h
  · intro hfaulty
    cases hfaulty with
    | unreadable hsource h => exact .inl (.inl ⟨_, hsource, h⟩)
    | rejected hspells h => exact .inl (.inr (.inl ⟨_, _, hspells, h⟩))
    | ambiguous hboth => exact .inl (.inr (.inr hboth))
    | nameless hdedicated hproject hnames =>
        exact .inr ⟨_, _, hdedicated, hproject, (hresolve hdedicated hproject).2 (.inl hnames)⟩
    | incomplete hdedicated hproject hused h =>
        exact .inr ⟨_, _, hdedicated, hproject,
          (hresolve hdedicated hproject).2 (.inr ⟨_, hused, h⟩)⟩

end Settings

end GitHooks

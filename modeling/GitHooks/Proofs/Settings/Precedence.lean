/-
**Which source wins.**

Settings are looked up in an order of sources.  For the name the order is the command line, the
configuration file, the project file, and the identity of the committer.  For the format of a
language it crosses the layers: a format on the command line comes first, but below it every block
of the language, of either file, comes before any format for all languages.  The layers are put on
top of each other as a whole, with the blocks of a language one on the other, and a flag remembers
whether the command line gave a format; the order of sources is what comes out of that.

Main definitions:

* `Settings.Layer.formatOf?`, `Settings.Layer.docstringOf?` — what the block of a language sets.

Main results:

* `Settings.Layer.formatOf?_or`, `Settings.Layer.docstringOf?_or` — a layer on top of another, seen
  from a language;
* `Settings.eq_of_resolve` — the settings in force, where there are any;
* `Settings.resolve_eq_missingIdentity_iff` — when no name is found;
* `Settings.resolve_precedence` — the order of sources.
-/

import GitHooks.Proofs.Settings.Formats

set_option relaxedAutoImplicit false
set_option autoImplicit false

namespace GitHooks

namespace Settings

variable {commandLine files dedicated project : Layer} {identity : Option Text}
  {settings : Resolved}

/-! ### Blocks of layers -/

namespace Layer

/-- The format in the block of a language. -/
def formatOf? (layer : Layer) (tag : Text) : Option Text :=
  (Entries.get? tag layer.languages).bind Block.format

/-- Whether notices go into docstrings, as the block of a language says. -/
def docstringOf? (layer : Layer) (tag : Text) : Option Bool :=
  (Entries.get? tag layer.languages).bind Block.docstring

/-- What the blocks of a language set in a layer on top of another. -/
theorem bind_get?_or {α : Type} {field : Block → Option α}
    (hfield : ∀ upper lower : Block, field (upper.or lower) = (field upper).or (field lower))
    (upper lower : Layer) (tag : Text) :
    (Entries.get? tag (upper.or lower).languages).bind field
      = ((Entries.get? tag upper.languages).bind field).or
        ((Entries.get? tag lower.languages).bind field) := by
  rw [or, Entries.get?_unionWith upper.languages_sorted lower.languages_sorted]
  cases Entries.get? tag upper.languages with
  | none => rfl
  | some block =>
      cases Entries.get? tag lower.languages with
      | none => exact Option.or_none.symm
      | some below => exact hfield block below

theorem formatOf?_or (upper lower : Layer) (tag : Text) :
    (upper.or lower).formatOf? tag = (upper.formatOf? tag).or (lower.formatOf? tag) :=
  bind_get?_or (fun _ _ => rfl) upper lower tag

theorem docstringOf?_or (upper lower : Layer) (tag : Text) :
    (upper.or lower).docstringOf? tag = (upper.docstringOf? tag).or (lower.docstringOf? tag) :=
  bind_get?_or (fun _ _ => rfl) upper lower tag

theorem formatOf?_of_nil {layer : Layer} (h : layer.languages = []) (tag : Text) :
    layer.formatOf? tag = none := by
  rw [formatOf?, h]
  rfl

theorem docstringOf?_of_nil {layer : Layer} (h : layer.languages = []) (tag : Text) :
    layer.docstringOf? tag = none := by
  rw [docstringOf?, h]
  rfl

end Layer

/-! ### Steps that can fail -/

/-- Where two steps succeed, each of them does. -/
theorem exists_of_bind {ε α β : Type} {first : Except ε α} {next : α → Except ε β} {b : β}
    (h : first.bind next = .ok b) : ∃ a, first = .ok a ∧ next a = .ok b := by
  cases first with
  | error error => exact nomatch h
  | ok a => exact ⟨a, rfl, h⟩

/-- An error of neither of two steps is none of both. -/
theorem bind_ne_error {ε α β : Type} {first : Except ε α} {next : α → Except ε β} {error : ε}
    (hfirst : first ≠ .error error) (hnext : ∀ a, next a ≠ .error error) :
    first.bind next ≠ .error error := by
  cases first with
  | error other => exact fun h => hfirst (congrArg Except.error (Except.error.inj h))
  | ok a => exact hnext a

/-! ### Settings in force -/

/-- What becomes of layers on top of each other: a name is asked for first, then the formats that
may be used are checked. -/
theorem resolve_eq (commandLine files : Layer) (identity : Option Text) :
    resolve commandLine files identity
      = match (commandLine.or files).name.or identity with
        | none => .error .missingIdentity
        | some name =>
          let format := (commandLine.or files).format.getD NoticeFormat.standard
          (checkFormat format).bind fun _ =>
            (if commandLine.format.isSome then .ok ()
              else checkBlocks (commandLine.or files).languages).bind fun _ =>
            .ok ⟨name, format, commandLine.format.isSome, (commandLine.or files).languages⟩ := by
  rw [resolve]
  cases (commandLine.or files).name.or identity with
  | none => rfl
  | some name =>
      cases hformat : commandLine.format.isSome with
      | true => rfl
      | false => rfl

/-- **The settings in force** are those of the layers on top of each other, filled in. -/
theorem eq_of_resolve (h : resolve commandLine files identity = .ok settings) :
    (commandLine.or files).name.or identity = some settings.name
      ∧ settings.format = (commandLine.or files).format.getD NoticeFormat.standard
      ∧ settings.formatFromCommandLine = commandLine.format.isSome
      ∧ settings.languages = (commandLine.or files).languages := by
  rw [resolve_eq] at h
  cases hname : (commandLine.or files).name.or identity with
  | none =>
      rw [hname] at h
      exact nomatch h
  | some name =>
      rw [hname] at h
      obtain ⟨_, -, hchecked⟩ := exists_of_bind h
      obtain ⟨_, -, hsettings⟩ := exists_of_bind hchecked
      obtain rfl := Except.ok.inj hsettings
      exact ⟨rfl, rfl, rfl, rfl⟩

theorem checkFormat_ne_missingIdentity (format : Text) :
    checkFormat format ≠ .error .missingIdentity := by
  rw [checkFormat]
  intro h
  cases hcheck : NoticeFormat.check format with
  | error fault => rw [hcheck] at h; cases h
  | ok _ => rw [hcheck] at h; cases h

theorem checkBlocks_ne_missingIdentity (languages : Entries Block) :
    checkBlocks languages ≠ .error .missingIdentity := by
  induction languages with
  | nil => exact fun h => nomatch h
  | cons entry rest ih =>
      obtain ⟨tag, block⟩ := entry
      rw [checkBlocks_cons]
      cases block.format with
      | none => exact ih
      | some format => exact bind_ne_error (checkFormat_ne_missingIdentity format) fun _ => ih

/-- **Only where no source gives a name is a name missing**: formats are refused for another
cause. -/
theorem resolve_eq_missingIdentity_iff :
    resolve commandLine files identity = .error .missingIdentity
      ↔ (commandLine.or files).name.or identity = none := by
  rw [resolve_eq]
  cases (commandLine.or files).name.or identity with
  | none => exact ⟨fun _ => rfl, fun _ => rfl⟩
  | some name =>
      refine iff_of_false ?_ (fun h => nomatch h)
      refine bind_ne_error (checkFormat_ne_missingIdentity _) fun _ =>
        bind_ne_error ?_ fun _ h => nomatch h
      split
      · exact fun h => nomatch h
      · exact checkBlocks_ne_missingIdentity _

/-! ### The order of sources -/

theorem findSome?_id_cons {α : Type} (first : Option α) (rest : List (Option α)) :
    (first :: rest).findSome? id = first.or (rest.findSome? id) := by
  cases first with
  | none => rfl
  | some value => rfl

/-- The format for the files of a language: on the command line, in the block of the language, and
among the formats for all languages. -/
theorem formatFor_of_resolve (h : resolve commandLine files identity = .ok settings) (tag : Text) :
    settings.formatFor (Entries.get? tag settings.languages)
      = ([commandLine.format, (commandLine.or files).formatOf? tag, files.format].findSome?
          id).getD NoticeFormat.standard := by
  obtain ⟨-, hformat, hcommand, hlanguages⟩ := eq_of_resolve h
  rw [Resolved.formatFor, hcommand, hlanguages, hformat]
  simp only [findSome?_id_cons, List.findSome?_nil, Option.or_none, Layer.formatOf?]
  change (if commandLine.format.isSome then (commandLine.format.or files.format).getD _
    else (_ : Option Text).getD ((commandLine.format.or files.format).getD _)) = _
  cases commandLine.format with
  | some given => rfl
  | none =>
    cases (Entries.get? tag (commandLine.or files).languages).bind Block.format with
    | some format => rfl
    | none => rfl

/-- **The order of sources.**  Where settings are in force, the name is the first that is given on
the command line, in the configuration file, in the project file, or by the identity of the
committer.  For a language the format is the one on the command line, else the first in a block of
the language, of the configuration file before the project file, else the first for all languages,
in the same order, else the standard one; and whether notices go into docstrings is the first that a
block of the language says, else they do not.  A name is missing exactly where no source gives
one. -/
theorem resolve_precedence (hblocks : commandLine.languages = []) :
    (∀ settings, resolve commandLine (dedicated.or project) identity = .ok settings →
        [commandLine.name, dedicated.name, project.name, identity].findSome? id
            = some settings.name
          ∧ ∀ language : Language, settings.forLanguage language
            = { name := settings.name
                format := ([commandLine.format, dedicated.formatOf? language.tag,
                  project.formatOf? language.tag, dedicated.format, project.format].findSome?
                    id).getD NoticeFormat.standard
                docstring := ([dedicated.docstringOf? language.tag,
                  project.docstringOf? language.tag].findSome? id).getD false })
      ∧ (resolve commandLine (dedicated.or project) identity = .error .missingIdentity
        ↔ ∀ name ∈ [commandLine.name, dedicated.name, project.name, identity], name = none) := by
  have hname : (commandLine.or (dedicated.or project)).name.or identity
      = [commandLine.name, dedicated.name, project.name, identity].findSome? id := by
    simp only [Layer.or, findSome?_id_cons, List.findSome?_nil, Option.or_none, Option.or_assoc]
  constructor
  · intro settings hsettings
    obtain ⟨hfound, hformat, hcommand, hlanguages⟩ := eq_of_resolve hsettings
    refine ⟨hname.symm.trans hfound, fun language => ?_⟩
    have hformat := formatFor_of_resolve hsettings language.tag
    have hdocstring : (Entries.get? language.tag settings.languages).bind Block.docstring
        = [dedicated.docstringOf? language.tag,
            project.docstringOf? language.tag].findSome? id := by
      rw [hlanguages]
      change (commandLine.or (dedicated.or project)).docstringOf? language.tag = _
      rw [Layer.docstringOf?_or, Layer.docstringOf?_or, Layer.docstringOf?_of_nil hblocks]
      simp only [findSome?_id_cons, List.findSome?_nil, Option.or_none, Option.none_or]
    rw [Layer.formatOf?_or, Layer.formatOf?_or, Layer.formatOf?_of_nil hblocks] at hformat
    rw [Resolved.forLanguage, hformat, hdocstring]
    simp only [Layer.or, findSome?_id_cons, List.findSome?_nil, Option.or_none, Option.none_or,
      Option.or_assoc]
  · rw [resolve_eq_missingIdentity_iff, hname, List.findSome?_eq_none_iff]
    rfl

/-- A configuration file with a block for a language, above a project file that sets everything. -/
def blockAbove : Layer :=
  Layer.empty.setBlock "python" ⟨none, some true⟩

/-- A project file that sets a name, a format for all languages, and one for a language. -/
def everythingSet : Layer :=
  { (Layer.empty.setBlock "python" ⟨some "(c) {year} {name}", some false⟩) with
    name := some "Ada", format := some "Copyright {year} {name}" }

/-- In Python files the format of the block below wins over the one for all languages, and the
docstring of the block above over the one below. -/
theorem resolve_precedence_python :
    ∃ settings, Layer.empty.languages = []
      ∧ resolve .empty (blockAbove.or everythingSet) (some "Grace") = .ok settings
      ∧ settings.forLanguage .python = ⟨"Ada", "(c) {year} {name}", true⟩ := by
  have hsettings : ∃ settings,
      resolve .empty (blockAbove.or everythingSet) (some "Grace") = .ok settings := ⟨_, rfl⟩
  obtain ⟨settings, hsettings⟩ := hsettings
  obtain ⟨hname, hlanguage⟩ := (resolve_precedence rfl).1 settings hsettings
  refine ⟨settings, rfl, hsettings, ?_⟩
  rw [hlanguage .python, ← Option.some.inj hname]
  rfl

end Settings

end GitHooks

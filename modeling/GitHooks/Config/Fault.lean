/-
**What is wrong with a configuration.**

A configuration is refused for one cause, which names the file or the wording it was found in.

Main definitions:

* `Config.Unreadable` — why the content of a file is not a table;
* `Config.Fault` — why a configuration is refused;
* `Config.Fault.message` — what a user is told.
-/

import GitHooks.Config.Ini
import GitHooks.Message.Template
import GitHooks.Notice.Format

set_option relaxedAutoImplicit false
set_option autoImplicit false

namespace GitHooks

namespace Config

open Text

/-- Why the content of a file is not a table. -/
inductive Unreadable where
  | yaml
  | json
  | toml
  | ini (fault : Ini.Fault)
deriving DecidableEq, Repr, Inhabited

/-- What a user is told about content that is not a table. -/
def Unreadable.message : Unreadable → Text
  | yaml => "not a mapping in YAML"
  | json => "not an object in JSON"
  | toml => "not a document in TOML"
  | ini fault => fault.message

/-- Why a configuration is refused. -/
inductive Fault where
  /-- The content of a file is not a table. -/
  | unreadable (path : Text) (reason : Unreadable)
  /-- The extension of a file tells no format. -/
  | unknownFormat (path : Text)
  /-- Several files of a project have a section for a tool. -/
  | ambiguous (tool : Text) (paths : List Text)
  /-- An option that has to be a text is none. -/
  | notAText (option source : Text)
  /-- An option that has to be a truth value is none. -/
  | notABoolean (option source : Text)
  /-- An option that has to be a table is none. -/
  | notATable (option source : Text)
  /-- There is no such option. -/
  | unknownOption (option source : Text)
  /-- There is no such option in the block of a language. -/
  | unknownLanguageOption (tag option source : Text)
  /-- The format of a notice lacks placeholders. -/
  | noticeFormat (fault : NoticeFormat.Fault)
  /-- The template of a message is refused. -/
  | template (fault : Template.Fault)
deriving DecidableEq, Repr, Inhabited

/-- The options that are not blocks of languages. -/
def globalOptions : List Text := ["name", "format"]

/-- The options of the block of a language. -/
def languageOptions : List Text := ["format", "docstr"]

/-- The name of an option in the block of a language. -/
def optionPath (tag option : Text) : Text := tag ++ "." ++ option

/-- What a user is told about a configuration that is refused. -/
def Fault.message : Fault → Text
  | unreadable path reason => "could not parse config file '" ++ path ++ "': " ++ reason.message
  | unknownFormat path =>
    "'" ++ path
      ++ "' is not a supported config file (expected .yaml, .yml, .json, .toml or .cfg)"
  | ambiguous tool paths =>
    "found [tool." ++ tool ++ "] in multiple config files: " ++ joinWith ", " paths
      ++ ". Keep exactly one."
  | notAText option source =>
    "option '" ++ option ++ "' in config file " ++ source ++ " must be a string"
  | notABoolean option source =>
    "option '" ++ option ++ "' in config file " ++ source ++ " must be a boolean"
  | notATable option source =>
    "option '" ++ option ++ "' in config file " ++ source ++ " must be a table"
  | unknownOption option source =>
    "unsupported option in config file " ++ source ++ ": '" ++ option
      ++ "'. Supported options are: " ++ joinWith ", " (globalOptions ++ Language.tags)
  | unknownLanguageOption tag option source =>
    "unsupported option in config file " ++ source ++ ": '" ++ optionPath tag option
      ++ "'. Supported options for '" ++ tag ++ "' are: " ++ joinWith ", " languageOptions
  | noticeFormat fault => fault.message
  | template fault => fault.message

end Config

end GitHooks

/-
**Imports of test tools.**

A module outside the test suite should not import the tools that tests are written with.  Such a
line is recognised by how it begins: white space, the word import or from, white space, and the
name of a tool as a whole word.

Main definitions:

* `TestImport.tools` — the tools;
* `TestImport.toolOf?` — the tool that a line imports;
* `TestImport.inLines` — the imports among the lines of a module;
* `TestImport.isSourceModule` — whether a path names a module outside the test suite.
-/

import GitHooks.Path
import GitHooks.Text.Space
import GitHooks.Text.Word

set_option relaxedAutoImplicit false
set_option autoImplicit false

namespace GitHooks

namespace TestImport

open Text

/-! ### Lines -/

/-- The tools that tests are written with. -/
def tools : List Text := ["pytest", "unittest", "mock", "hypothesis", "pytest_mock"]

/-- What stands behind the word import or from that a text begins with. -/
def afterKeyword? (t : Text) : Option Text := (dropLeading? "import" t).or (dropLeading? "from" t)

/-- The tool that a line imports. -/
def toolOf? (line : Text) : Option Text :=
  (afterKeyword? (trimStart line)).bind fun rest =>
    let name := (trimStart rest).takeWhile isWord
    if indentation rest ≠ 0 ∧ tools.contains name then some name else none

/-- The import of a tool on a line. -/
structure Finding where
  /-- The number of the line, from one. -/
  lineNumber : Nat
  tool : Text
deriving DecidableEq, Repr, Inhabited

/-- The imports among the lines of a module. -/
def inLines (lines : List Text) : List Finding :=
  lines.zipIdx.filterMap fun (line, index) => (toolOf? line).map fun tool => ⟨index + 1, tool⟩

/-- What a user is told about an import. -/
def Finding.message (finding : Finding) : Text :=
  ofNat finding.lineNumber ++ ": imports test tool '" ++ finding.tool ++ "'"

/-! ### Modules -/

/-- Whether the name of a file marks it as part of a test suite. -/
def isTestName (name : Text) : Bool :=
  name = "conftest.py" || startsWith name "test_" || endsWith name "_test.py"

/-- The directories that hold test suites. -/
def testDirectories : List Path.Component := [.name "test", .name "tests"]

/-- Whether a path names a module outside the test suite. -/
def isSourceModule (path : Text) : Bool :=
  Path.extension? path = some (("py" : Text)) && !isTestName ((Path.fileName? path).getD [])
    && !(Path.components path).dropLast.any testDirectories.contains

end TestImport

end GitHooks

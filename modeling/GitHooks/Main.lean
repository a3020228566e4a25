/-
**The command.**

The first argument names a hook, the others are its arguments.  The files that the hook may look
at are read first; then the run itself is a function of them, and what it changed is written.  Where
a file cannot be written, the run is the one on a disk that refuses to replace this file.

Answers about the repository are taken from the files of a directory that the environment names:
`user_name`, `branch`, `root`, and one file below `log` for each file with commits.  A file that is
not there is the answer of a query that failed.

Main definitions:

* `Command.load` — the files on a way through the disk;
* `Command.git` — the answers about the repository;
* `Command.settle` — the answer of a run, once what it changed is written;
* `main` — the command.
-/

import GitHooks.Clock
import GitHooks.Hook
import Std.Time.DateTime.Timestamp

set_option relaxedAutoImplicit false
set_option autoImplicit false

namespace GitHooks

namespace Command

open Text

/-! ### Reading -/

/-- The text of a variable of the environment. -/
def environment? (name : String) : IO (Option Text) := return (← IO.getEnv name).map String.toList

/-- What is at a place of the disk. -/
def probe (place : Location) : IO (Option FileTree.Content) := do
  try
    return some (.file (← IO.FS.readBinFile (String.ofList (FileTree.pathOf place))))
  catch error =>
    match error with
    | .inappropriateType .. => return some .directory
    | _ => return none

/-- A tree with what is on the way along some segments of a path. -/
def load (tree : FileTree) (here : Location) : List Text → IO FileTree
  | [] => return tree
  | segment :: rest => do
    if segment = [] ∨ segment = "." then load tree here rest
    else if segment = ".." then load tree here.dropLast rest
    else
      let place := here ++ [segment]
      match ← probe place with
      | none => return tree
      | some (.file bytes) => return ⟨(place, .file bytes) :: tree.entries⟩
      | some .directory => load ⟨(place, .directory) :: tree.entries⟩ place rest

/-- A tree with what is on the way along a path. -/
def loadPath (directory : Location) (tree : FileTree) (path : Text) : IO FileTree :=
  load tree (if startsWith path "/" then [] else directory) (splitOn "/" path)

/-- The bytes of a file among the answers. -/
def answer? (answers : Text) (name : Text) : IO (Option ByteArray) := do
  try return some (← IO.FS.readBinFile (String.ofList (Path.join answers name)))
  catch _ => return none

/-- The answer in a file. -/
def replyOf (content : Option ByteArray) : Git.Reply :=
  match content with
  | some bytes => .ofBytes bytes ByteArray.empty 0
  | none => .ofBytes ByteArray.empty ByteArray.empty 1

/-- The answers about the repository, with those about some files. -/
def git (answers : Text) (paths : List Text) : IO Git := do
  let logs ← paths.mapM fun path => return (path, replyOf (← answer? answers ("log/" ++ path)))
  return {
    userName := replyOf (← answer? answers "user_name")
    branch := replyOf (← answer? answers "branch")
    root := replyOf (← answer? answers "root")
    log := fun path => (logs.lookup path).getD (replyOf none) }

/-- The paths that a run may look at. -/
def pathsOf (site : Site) (given : CommandLine.Given) : List Text :=
  let root := (Git.workingTree site.git site.path).toOption.getD site.path
  site.path :: given.operands ++ (given.value? "config").toList
    ++ (Settings.dedicatedFile :: Config.projectFiles.map (·.1)).map (Path.join root)

/-! ### Writing -/

/-- The reason that an error tells. -/
def reasonOf : IO.Error → Text
  | .permissionDenied _ code details | .resourceExhausted _ code details =>
    details.toList ++ " (os error " ++ (toString code).toList ++ ")"
  | error => (toString error).toList

/-- Writes a file, and tells the refusal where that cannot be done. -/
def replace (place : Location) (bytes : ByteArray) : IO (Option Disk.Refusal) := do
  try
    IO.FS.writeBinFile (String.ofList (FileTree.pathOf place)) bytes
    return none
  catch error => return some ⟨.rename, reasonOf error⟩

/-- Writes the files that differ between two trees, and tells which of them could not be written. -/
def store (before after : FileTree) : IO (List (Location × Disk.Refusal)) :=
  after.entries.filterMapM fun (place, content) =>
    match content with
    | .file bytes => do
      if (before.fileAt? place).map (·.data) = some bytes.data then return none
      return (← replace place bytes).map fun refusal => (place, refusal)
    | .directory => return none

/-- The answer of a run, once what it changed is written.  Each time some files cannot be written,
it is answered again on a disk that refuses them, which happens once a file at most. -/
def settle (hook : Hook) (site : Site) (tree : FileTree) (arguments : List Text) :
    Nat → List (Location × Disk.Refusal) → IO Hook.Answer
  | 0, refusals => return hook.runOn (.refusing site.directory refusals) site tree arguments
  | rounds + 1, refusals => do
    match hook.runOn (.refusing site.directory refusals) site tree arguments with
    | .finished after report =>
      match ← store tree after with
      | [] => return .finished after report
      | more => settle hook site tree arguments rounds (refusals ++ more)
    | answer => return answer

/-- The file of the journal. -/
def journalFile : IO Text := do
  match ← environment? "PRE_COMMIT_HOOKS_DEBUG_LOG" with
  | some path => return path
  | none =>
    let below := ((← environment? "HOME").map fun home => Path.join home ".cache").getD "/tmp"
    let cache := (← environment? "XDG_CACHE_HOME").getD below
    return Path.join (Path.join cache "pre-commit-hooks") "debug.jsonl"

/-- Adds entries to the journal, where it is kept. -/
def note (moment : Text) (entries : List Journal.Entry) : IO Unit := do
  if (← environment? "PRE_COMMIT_HOOKS_DEBUG").isSome then
    let path ← journalFile
    let above := (path.reverse.dropWhile (· != '/')).reverse
    try
      unless above.isEmpty do IO.FS.createDirAll (String.ofList above)
      let handle ← IO.FS.Handle.mk (String.ofList path) .append
      entries.forM fun entry => handle.putStrLn (String.ofList (entry.line moment))
    catch _ => return

/-! ### Running -/

/-- Whether changes are shown in colours. -/
def coloured : IO Bool := do
  match ← environment? "CLICOLOR_FORCE" with
  | some force => if force ≠ "0" then return true
  | none => pure ()
  if (← environment? "NO_COLOR").isSome then return false
  (← IO.getStdout).isTty

/-- Where and when the hook runs. -/
def site (moment : Datetime) (paths : List Text) : IO Site := do
  let here := (← IO.currentDir).toString.toList
  let answers ← environment? "GIT_HOOKS_ANSWERS"
  return {
    directory := (splitOn "/" here).filter (! ·.isEmpty)
    git := ← answers.mapM fun answers => git answers paths
    year := (moment.date.map fun date => (date.year : Int)).getD 1970
    coloured := ← coloured }

/-- How a switch is used. -/
def usageOf (switch : CommandLine.Switch) : Text :=
  " [--" ++ switch.long ++ if switch.takesValue then " VALUE]" else "]"

/-- How operands are used. -/
def operandUsage : CommandLine.Operands → Text
  | .any => " [FILE]..."
  | .one => " FILE"

/-- How a hook is used. -/
def usage (hook : Hook) : Text :=
  "Usage: " ++ hook.name ++ hook.grammar.switches.flatMap usageOf
    ++ operandUsage hook.grammar.operands

/-- Runs a hook with some arguments and tells its exit code. -/
def run (hook : Hook) (arguments : List Text) : IO UInt32 := do
  let now ← Std.Time.Timestamp.now
  let moment := Clock.moment now.toSecondsSinceUnixEpoch.val.toNat
  let given := (CommandLine.parse hook.grammar arguments).toOption.getD default
  let site ← site moment given.operands
  let tree ← (pathsOf site given).foldlM (loadPath site.directory) ⟨[]⟩
  let answer ← settle hook site tree arguments tree.entries.length []
  match answer with
  | .help => IO.println (String.ofList (usage hook))
  | .version => IO.println (String.ofList hook.versionLine)
  | .misuse => IO.eprintln (String.ofList (usage hook))
  | .finished _ report =>
    report.output.forM fun line => IO.println (String.ofList line)
    report.complaints.forM fun line => IO.eprintln (String.ofList line)
    note moment.text report.journal
  return answer.exitCode.toUInt32

end Command

end GitHooks

open GitHooks in
/-- The command. -/
def main (arguments : List String) : IO UInt32 := do
  match arguments with
  | [] => IO.eprintln "Usage: HOOK ARGUMENTS"; return 2
  | name :: rest =>
    match Hook.ofName? name.toList with
    | some hook => Command.run hook (rest.map String.toList)
    | none => IO.eprintln ("no such hook: " ++ name); return 2

import GitHooks.Width
import GitHooks.Buffer
import GitHooks.Language
import GitHooks.Text.Word
import GitHooks.Text.Pattern
import GitHooks.Text.Lines
import GitHooks.Text.Space
import GitHooks.Notice.Basic
import GitHooks.Notice.Header
import GitHooks.Notice.Grammar
import GitHooks.Notice.Search
import GitHooks.Notice.Format
import GitHooks.Notice.Edit
import GitHooks.Section
import GitHooks.Message.IssueId
import GitHooks.Message.Template
import GitHooks.Message.WithIssue
import GitHooks.Spelling
import GitHooks.TestImport
import GitHooks.Diff
import GitHooks.Entries
import GitHooks.Binary64
import GitHooks.Reader
import GitHooks.Config.Datetime
import GitHooks.Config.Value
import GitHooks.Config.Ini
import GitHooks.Config.Json
import GitHooks.Config.Toml.Syntax
import GitHooks.Config.Yaml.Value
import GitHooks.Text.Encoding
import GitHooks.FileTree
import GitHooks.Config.Fault
import GitHooks.HookError
import GitHooks.Disk
import GitHooks.Config.File
import GitHooks.Settings.Layer
import GitHooks.Settings.Resolved
import GitHooks.Git
import GitHooks.Journal
import GitHooks.CommandLine
import GitHooks.Hook.Report
import GitHooks.Hook.FileHook
import GitHooks.Hook.AddCopyright
import GitHooks.Hook.UpdateCopyright
import GitHooks.Hook.SortFileContents
import GitHooks.Hook.Americanise
import GitHooks.Hook.RefuseTestImports
import GitHooks.Hook.AddIssue
import GitHooks.Hook
import GitHooks.Clock
import GitHooks.Main
import GitHooks.Proofs.Text.Affix
import GitHooks.Proofs.Text.Split
import GitHooks.Proofs.Text.Trim
import GitHooks.Proofs.Text.Decimal
import GitHooks.Proofs.Buffer.RoundTrip
import GitHooks.Proofs.Header.Segments
import GitHooks.Proofs.Header.Alike
import GitHooks.Proofs.Header.Marks
import GitHooks.Proofs.Header.Preamble
import GitHooks.Proofs.Header.YearLines
import GitHooks.Proofs.Notice.Years
import GitHooks.Proofs.Notice.Statement
import GitHooks.Proofs.Notice.Visits
import GitHooks.Proofs.Notice.Update
import GitHooks.Proofs.Notice.Wording
import GitHooks.Proofs.Notice.Opening
import GitHooks.Proofs.Notice.Insert
import GitHooks.Proofs.Settings.Formats
import GitHooks.Proofs.Notice.Idempotence
import GitHooks.Proofs.Notice.Frame
import GitHooks.Proofs.Notice.Range
import GitHooks.Proofs.Buffer.ReadBack
import GitHooks.Proofs.FileTree.Writing
import GitHooks.Proofs.Hook.SingleFile
import GitHooks.Proofs.Hook.SortAgain
import GitHooks.Proofs.Section.Reread
import GitHooks.Proofs.Hook.AmendAgain
import GitHooks.Proofs.Hook.Requests
import GitHooks.Proofs.Hook.Account
import GitHooks.Proofs.Hook.Independence
import GitHooks.Proofs.Config.Lines
import GitHooks.Proofs.Settings.Precedence
import GitHooks.Proofs.Settings.Options
import GitHooks.Proofs.Config.Written
import GitHooks.Proofs.Config.Gathered
import GitHooks.Proofs.Settings.EitherFile
import GitHooks.Proofs.Buffer.PhysicalLines
import GitHooks.Proofs.Spelling.Lookup
import GitHooks.Proofs.Spelling.Search
import GitHooks.Proofs.Spelling
import GitHooks.Proofs.Hook.LineNumbers
import GitHooks.Proofs.Config.Reread
import GitHooks.Proofs.Text.AtEnd
import GitHooks.Proofs.Notice.Declaration
import GitHooks.Proofs.Notice.Enclosed
import GitHooks.Proofs.Spelling.Corrected
import GitHooks.Proofs.Hook.CorrectAgain
import GitHooks.Proofs.Settings.Faults
import GitHooks.Proofs.Settings.SpelledOut
import GitHooks.Proofs.Hook.Startup
import GitHooks.Proofs.Notice.Kept
import GitHooks.Proofs.Header.Docstring
import GitHooks.Proofs.Notice.Merged
import GitHooks.Proofs.Header.InBytes
import GitHooks.Proofs.Header.LineInBytes
import GitHooks.Proofs.Notice.InBytes
import GitHooks.Proofs.Notice.WellFormed
import GitHooks.Proofs.Section.Distinct
import GitHooks.Proofs.Header.Reached
import GitHooks.Proofs.Notice.HeaderOnly
import GitHooks.Proofs.Text.Words
import GitHooks.Proofs.Spelling.Found
import GitHooks.Proofs.Text.Core
import GitHooks.Proofs.Notice.Signed
import GitHooks.Proofs.Notice.FirstYear
import GitHooks.Proofs.Notice.Accepted
import GitHooks.Proofs.Text.Longest
import GitHooks.Proofs.Message.FirstIssue
import GitHooks.Proofs.Message.Slots
import GitHooks.Proofs.Message.Comments
import GitHooks.Proofs.Message.Cited
import GitHooks.Proofs.TestImport
import GitHooks.Proofs.Diff.Faithful
import GitHooks.Proofs.Header.Layout
import GitHooks.Proofs.Settings.Bracketing

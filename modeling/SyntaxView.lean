import SyntaxView.Command.Basic
import SyntaxView.Command.Words
import SyntaxView.CommandLine.Arguments
import SyntaxView.CommandLine.Run
import SyntaxView.Data
import SyntaxView.Database.Basic
import SyntaxView.Database.Reader
import SyntaxView.Decimal
import SyntaxView.Diagnostic
import SyntaxView.ExitCode
import SyntaxView.FileSystem
import SyntaxView.Json.Reader
import SyntaxView.Json.Shape
import SyntaxView.Json.Value
import SyntaxView.Labelled
import SyntaxView.Library.Basic
import SyntaxView.Library.Cursor
import SyntaxView.Library.Loading
import SyntaxView.Library.Request
import SyntaxView.Main
import SyntaxView.Options
import SyntaxView.OsError
import SyntaxView.OutputError
import SyntaxView.OutputFormat
import SyntaxView.ParseError
import SyntaxView.ParsedFile.Basic
import SyntaxView.ParsedFile.Writer
import SyntaxView.Path
import SyntaxView.Settings.Basic
import SyntaxView.Settings.Decode
import SyntaxView.Settings.Environment
import SyntaxView.Settings.Load
import SyntaxView.Settings.Save
import SyntaxView.Settings.Wrapped
import SyntaxView.Source
import SyntaxView.Text.Blank
import SyntaxView.Text.Debug
import SyntaxView.Text.Hidden
import SyntaxView.Text.Utf8
import SyntaxView.Toml.Edition
import SyntaxView.Toml.Reader
import SyntaxView.Toml.Scalar
import SyntaxView.Toml.Text
import SyntaxView.Toml.Writer
import SyntaxView.Trace
import SyntaxView.Tree.Json
import SyntaxView.Tree.Kind
import SyntaxView.Tree.Lines
import SyntaxView.Tree.Node
import SyntaxView.Tree.Position
import SyntaxView.Tree.Render
import SyntaxView.Tree.Type
import SyntaxView.Proofs.Command.Grammar
import SyntaxView.Proofs.Json.Text
import SyntaxView.Proofs.Tree.Numbering
import SyntaxView.Proofs.Tree.Json
import SyntaxView.Proofs.Tree.Stream
import SyntaxView.Proofs.Tree.Order
import SyntaxView.Proofs.Library.Extraction
import SyntaxView.Proofs.Tree.Agreement
import SyntaxView.Proofs.ParsedFile
import SyntaxView.Proofs.CommandLine.Output
import SyntaxView.Proofs.CommandLine.Parse
import SyntaxView.Proofs.CommandLine.Database
import SyntaxView.Proofs.Library.Users
import SyntaxView.Proofs.Command.Arguments
import SyntaxView.Proofs.Data
import SyntaxView.Proofs.Toml.Order
import SyntaxView.Proofs.Settings.Sections
import SyntaxView.Proofs.Settings.Layers
import SyntaxView.Proofs.CommandLine.Layers
import SyntaxView.Proofs.Toml.Text
import SyntaxView.Proofs.Toml.Document
import SyntaxView.Proofs.Settings.Saved
import SyntaxView.Proofs.Command.SourceName
import SyntaxView.Proofs.Library.Outcome
import SyntaxView.Proofs.Tree.Failure
import SyntaxView.Proofs.Command.Concatenation
import SyntaxView.Proofs.Ancestors
import SyntaxView.Proofs.Settings.Nearest
import SyntaxView.Proofs.Toml.Editions
import SyntaxView.Proofs.Settings.Defaults
import SyntaxView.Proofs.Settings.Check
import SyntaxView.Proofs.Options
import SyntaxView.Proofs.CurrentDirectory
import SyntaxView.Proofs.Database.Spelling
import SyntaxView.Proofs.Settings.Install
import SyntaxView.Proofs.CommandLine.Config
import SyntaxView.Proofs.Tree.Walk
import SyntaxView.Proofs.Library.Codes

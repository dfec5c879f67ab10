import Worksheet.About
import Worksheet.Alphabet
import Worksheet.Alphabet.CodePoint
import Worksheet.Calendar
import Worksheet.Calendar.Reader
import Worksheet.CommandLine
import Worksheet.CommandLine.Arguments
import Worksheet.CommandLine.Check
import Worksheet.CommandLine.Ending
import Worksheet.CommandLine.Fix
import Worksheet.CommandLine.Help
import Worksheet.CommandLine.Intake
import Worksheet.CommandLine.Request
import Worksheet.Correction
import Worksheet.Diagnostic
import Worksheet.Diagnostic.Json
import Worksheet.Document
import Worksheet.Engine
import Worksheet.Fault
import Worksheet.FileName
import Worksheet.Files
import Worksheet.Files.Naming
import Worksheet.Files.Problem
import Worksheet.Host
import Worksheet.Image
import Worksheet.Image.Folder
import Worksheet.Image.Numbering
import Worksheet.Image.Rule
import Worksheet.Image.Typo
import Worksheet.Journal
import Worksheet.Json
import Worksheet.Json.Checked
import Worksheet.Json.Reader
import Worksheet.Json.Writer
import Worksheet.Main
import Worksheet.Marks
import Worksheet.Number.Binary64
import Worksheet.Number.Decimal
import Worksheet.Number.Digits
import Worksheet.Number.Real
import Worksheet.Number.Shortest
import Worksheet.Pattern
import Worksheet.Profile
import Worksheet.Profile.Bundled
import Worksheet.Profile.File
import Worksheet.Profile.Store
import Worksheet.Proofs.Alphabet
import Worksheet.Proofs.Calendar
import Worksheet.Proofs.CommandLine.Check
import Worksheet.Proofs.CommandLine.Command
import Worksheet.Proofs.CommandLine.Fix
import Worksheet.Proofs.CommandLine.Intake
import Worksheet.Proofs.CommandLine.Repair
import Worksheet.Proofs.CommandLine.Skipped
import Worksheet.Proofs.Correction.Exchange
import Worksheet.Proofs.Correction.Greedy
import Worksheet.Proofs.Correction.Splice
import Worksheet.Proofs.Correction.Substitution
import Worksheet.Proofs.Diagnostic
import Worksheet.Proofs.Document
import Worksheet.Proofs.Document.Lines
import Worksheet.Proofs.Document.Position
import Worksheet.Proofs.Document.Range
import Worksheet.Proofs.Engine.Clean
import Worksheet.Proofs.Engine.Embedding
import Worksheet.Proofs.Engine.Failure
import Worksheet.Proofs.Engine.Isolation
import Worksheet.Proofs.Engine.Labels
import Worksheet.Proofs.Engine.Logging
import Worksheet.Proofs.Engine.Loop
import Worksheet.Proofs.Engine.Registration
import Worksheet.Proofs.Engine.Survival
import Worksheet.Proofs.Engine.Trace
import Worksheet.Proofs.Fault
import Worksheet.Proofs.FileName
import Worksheet.Proofs.Files
import Worksheet.Proofs.Image.Annotations
import Worksheet.Proofs.Image.Cleared
import Worksheet.Proofs.Image.Closing
import Worksheet.Proofs.Image.Counting
import Worksheet.Proofs.Image.Coverage
import Worksheet.Proofs.Image.Doubled
import Worksheet.Proofs.Image.Folder
import Worksheet.Proofs.Image.Forward
import Worksheet.Proofs.Image.Mistaken
import Worksheet.Proofs.Image.Numbering
import Worksheet.Proofs.Image.Padding
import Worksheet.Proofs.Image.Reading
import Worksheet.Proofs.Image.Repair
import Worksheet.Proofs.Image.Shape
import Worksheet.Proofs.Image.Span
import Worksheet.Proofs.Image.Typo
import Worksheet.Proofs.Image.Window
import Worksheet.Proofs.Journal
import Worksheet.Proofs.Json.Number
import Worksheet.Proofs.Json.Text
import Worksheet.Proofs.Json.Value
import Worksheet.Proofs.Marks.Extraction
import Worksheet.Proofs.Marks.Grammar
import Worksheet.Proofs.Marks.Rewriting
import Worksheet.Proofs.Marks.Shape
import Worksheet.Proofs.Number.Digits
import Worksheet.Proofs.Number.Rounding
import Worksheet.Proofs.Number.Shortest
import Worksheet.Proofs.Pattern.Preferred
import Worksheet.Proofs.Pattern.Reading
import Worksheet.Proofs.Pattern.Scan
import Worksheet.Proofs.Pattern.Seam
import Worksheet.Proofs.Pattern.Single
import Worksheet.Proofs.Pattern.Weave
import Worksheet.Proofs.Profile
import Worksheet.Proofs.Profile.File
import Worksheet.Proofs.Profile.Rules
import Worksheet.Proofs.Profile.Store
import Worksheet.Proofs.Report
import Worksheet.Proofs.Report.Lines
import Worksheet.Proofs.Text.Letters
import Worksheet.Proofs.Text.Search
import Worksheet.Proofs.Text.Utf8
import Worksheet.Proofs.Value.Conversion
import Worksheet.Proofs.Yaml.Node
import Worksheet.Proofs.Yaml.Scalar
import Worksheet.Proofs.Yaml.Token
import Worksheet.Proofs.Yaml.Value
import Worksheet.Report
import Worksheet.Report.Json
import Worksheet.Rule
import Worksheet.Settings
import Worksheet.Text
import Worksheet.Text.Blank
import Worksheet.Text.Case
import Worksheet.Text.Digit
import Worksheet.Text.Pieces
import Worksheet.Text.Printable
import Worksheet.Text.Quoted
import Worksheet.Text.Ranges
import Worksheet.Text.Utf8
import Worksheet.Text.Word
import Worksheet.Value
import Worksheet.Value.Conversion
import Worksheet.Value.Sets
import Worksheet.Value.Shown
import Worksheet.Yaml.Characters
import Worksheet.Yaml.Node
import Worksheet.Yaml.Node.Merge
import Worksheet.Yaml.Scalar.Block
import Worksheet.Yaml.Scalar.Plain
import Worksheet.Yaml.Scalar.Quoted
import Worksheet.Yaml.Scalar.Value
import Worksheet.Yaml.Source
import Worksheet.Yaml.Tag
import Worksheet.Yaml.Token
import Worksheet.Yaml.Token.Lexer
import Worksheet.Yaml.Value

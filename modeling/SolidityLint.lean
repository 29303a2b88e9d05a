import SolidityLint.Json.Reader
import SolidityLint.Main
import SolidityLint.Proofs.Check.Accumulation
import SolidityLint.Proofs.Identifiers
import SolidityLint.Proofs.Check.Independence
import SolidityLint.Proofs.Check.Messages
import SolidityLint.Proofs.Files.Discovery
import SolidityLint.Proofs.Groups
import SolidityLint.Proofs.Report.Lines
import SolidityLint.Proofs.Report.Lossless
import SolidityLint.Proofs.Check.Grading
import SolidityLint.Proofs.Text.Occurrences
import SolidityLint.Proofs.Check.Places
import SolidityLint.Proofs.Report.Verdict
import SolidityLint.Proofs.Run.Verdict
import SolidityLint.Proofs.Config.Reading
import SolidityLint.Proofs.Config.RoundTrip
import SolidityLint.Proofs.Config.Document
import SolidityLint.Proofs.Files.Following
import SolidityLint.Proofs.Files.Writing
import SolidityLint.Proofs.Bytes.Utf8
import SolidityLint.Proofs.Files.Names
import SolidityLint.Proofs.Run.Frame
import SolidityLint.Proofs.Files.Repeating
import SolidityLint.Proofs.Files.Agreement
import SolidityLint.Proofs.Run.Repeating
import SolidityLint.Proofs.Run.Paths
import SolidityLint.Proofs.Files.Named
import SolidityLint.Proofs.Json.Reading
import SolidityLint.Proofs.Run.Document
import SolidityLint.Proofs.CommandLine.Choices
import SolidityLint.Proofs.Run.Configuration
import SolidityLint.Proofs.Text.Leftmost
import SolidityLint.Proofs.Declaration.Pieces
import SolidityLint.Proofs.Declaration.Functions
import SolidityLint.Proofs.Declaration.Constants
import SolidityLint.Proofs.Naming.Styles
import SolidityLint.Proofs.Declaration.Contracts
import SolidityLint.Proofs.Check.Declarations
import SolidityLint.Proofs.Declaration.Visibility
import SolidityLint.Proofs.Check.Functions
import SolidityLint.Proofs.Declaration.Arguments
import SolidityLint.Proofs.Declaration.Imports
import SolidityLint.Proofs.Check.Header
import SolidityLint.Proofs.Check.Layout
import SolidityLint.Proofs.Check.Imports
import SolidityLint.Proofs.Check.ImportOrder
import SolidityLint.Proofs.Result.Partition
import SolidityLint.Proofs.Result.Steps
import SolidityLint.Proofs.Declaration.Events
import SolidityLint.Proofs.Check.Events
import SolidityLint.Proofs.Config.Acceptance
import SolidityLint.Proofs.Files.Loading
import SolidityLint.Proofs.Config.Overrides
import SolidityLint.Proofs.Run.Progress
import SolidityLint.Proofs.Yaml.Input
import SolidityLint.Proofs.Run.SetupFailure
import SolidityLint.Proofs.Text.Offsets
import SolidityLint.Proofs.Naming.Patterns
import SolidityLint.Proofs.Text.LowerCase
import SolidityLint.Proofs.Severity
import SolidityLint.Proofs.Yaml.Empty
import SolidityLint.Proofs.Config.Loading
import SolidityLint.Proofs.Yaml.Keys

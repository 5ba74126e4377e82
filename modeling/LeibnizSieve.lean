import LeibnizSieve.CommandLine.Arguments
import LeibnizSieve.CommandLine.Help
import LeibnizSieve.CommandLine.Program
import LeibnizSieve.Config.Decoding
import LeibnizSieve.Config.Settings
import LeibnizSieve.Console.Session
import LeibnizSieve.Console.Sink
import LeibnizSieve.Console.Words
import LeibnizSieve.Decimal.Fixed
import LeibnizSieve.Decimal.Layout
import LeibnizSieve.Decimal.Nearest
import LeibnizSieve.Decimal.Reading
import LeibnizSieve.Decimal.Rounding
import LeibnizSieve.Decimal.Shortest
import LeibnizSieve.Files.Volume
import LeibnizSieve.Leibniz.Report
import LeibnizSieve.Leibniz.Run
import LeibnizSieve.Leibniz.Series
import LeibnizSieve.Log.Directive
import LeibnizSieve.Log.Event
import LeibnizSieve.Log.FieldValue
import LeibnizSieve.Log.Filter
import LeibnizSieve.Log.Level
import LeibnizSieve.Main
import LeibnizSieve.Pattern.Bracket
import LeibnizSieve.Pattern.Check
import LeibnizSieve.Pattern.Escape
import LeibnizSieve.Pattern.Modes
import LeibnizSieve.Powers
import LeibnizSieve.Report.Delivery
import LeibnizSieve.Report.Elapsed
import LeibnizSieve.Report.Json
import LeibnizSieve.Report.Request
import LeibnizSieve.Sieve.Report
import LeibnizSieve.Sieve.Run
import LeibnizSieve.Sieve.Table
import LeibnizSieve.Text.Alphabetic
import LeibnizSieve.Text.Alphanumeric
import LeibnizSieve.Text.Blank
import LeibnizSieve.Text.Hexadecimal
import LeibnizSieve.Text.Plain
import LeibnizSieve.Text.Quoted
import LeibnizSieve.Text.Ranges
import LeibnizSieve.Text.Unprintable
import LeibnizSieve.Text.Utf8
import LeibnizSieve.Toml.Document
import LeibnizSieve.Toml.Excerpt
import LeibnizSieve.Toml.Quoted
import LeibnizSieve.Toml.Scalar
import LeibnizSieve.Toml.Statement
import LeibnizSieve.Toml.Table
import LeibnizSieve.Toml.Trivia
import LeibnizSieve.Toml.Value
import LeibnizSieve.Proofs.Sieve.Primality
import LeibnizSieve.Proofs.Sieve.CheckedSweep
import LeibnizSieve.Proofs.Files.Writing
import LeibnizSieve.Proofs.Report.Delivery
import LeibnizSieve.Proofs.Sieve.Outcome
import LeibnizSieve.Proofs.Console.PartialWrites
import LeibnizSieve.Proofs.Leibniz.Convergence
import LeibnizSieve.Proofs.Config.Writing
import LeibnizSieve.Proofs.CommandLine.Refusal
import LeibnizSieve.Proofs.Leibniz.Outcome
import LeibnizSieve.Proofs.CommandLine.Output
import LeibnizSieve.Proofs.Decimal.Shortest
import LeibnizSieve.Proofs.Decimal.Notation
import LeibnizSieve.Proofs.Decimal.RoundTrip
import LeibnizSieve.Proofs.Json.Reader
import LeibnizSieve.Proofs.Json.Writing
import LeibnizSieve.Proofs.Leibniz.Figures
import LeibnizSieve.Proofs.Sieve.Figures
import LeibnizSieve.Proofs.Binary64.Order
import LeibnizSieve.Proofs.Binary64.Denotation
import LeibnizSieve.Proofs.Leibniz.FloatSum
import LeibnizSieve.Proofs.Leibniz.Nesting
import LeibnizSieve.Proofs.Leibniz.Terms
import LeibnizSieve.Proofs.Decimal.FixedPlaces
import LeibnizSieve.Proofs.Leibniz.ResultLine
import LeibnizSieve.Proofs.Sieve.Queries
import LeibnizSieve.Proofs.Report.Request
import LeibnizSieve.Proofs.Log.Spelling
import LeibnizSieve.Proofs.Log.Offsets
import LeibnizSieve.Proofs.Log.Scanning
import LeibnizSieve.Proofs.Config.LogLevel
import LeibnizSieve.Proofs.Log.Specificity
import LeibnizSieve.Proofs.Log.Environment
import LeibnizSieve.Proofs.Console.Remarks
import LeibnizSieve.Proofs.CommandLine.LogLines
import LeibnizSieve.Proofs.Sieve.Heads
import LeibnizSieve.Proofs.Binary64.Differences
import LeibnizSieve.Proofs.Leibniz.AbsError
import LeibnizSieve.Proofs.Leibniz.SumRange
import LeibnizSieve.Proofs.Leibniz.Wrapping

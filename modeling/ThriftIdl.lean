import ThriftIdl.Document.Basic
import ThriftIdl.Grammar.Declaration
import ThriftIdl.Reading.Basic
import ThriftIdl.Json.OfDocument
import ThriftIdl.Json.Render
import ThriftIdl.Tool.Program
import ThriftIdl.Main
import ThriftIdl.Proofs.Concatenation
import ThriftIdl.Proofs.TypeSyntax
import ThriftIdl.Proofs.Layout
import ThriftIdl.Proofs.Printing.Numeral
import ThriftIdl.Proofs.Nesting.Cap
import ThriftIdl.Proofs.Backtracking
import ThriftIdl.Proofs.Noninterference
import ThriftIdl.Proofs.Nesting.Refusal
import ThriftIdl.Proofs.Nesting.Within
import ThriftIdl.Proofs.Grammar.Steps
import ThriftIdl.Proofs.Nesting.Diagnosis
import ThriftIdl.Proofs.Nesting.Exact
import ThriftIdl.Proofs.Printing.Words
import ThriftIdl.Proofs.Printing.Values
import ThriftIdl.Proofs.Printing.Fields
import ThriftIdl.Proofs.Printing.Declarations
import ThriftIdl.Proofs.RoundTrip
import ThriftIdl.Proofs.IntegerLists
import ThriftIdl.Proofs.DottedNames
import ThriftIdl.Proofs.Progress
import ThriftIdl.Proofs.Trace.Characters
import ThriftIdl.Proofs.Trace.Lines
import ThriftIdl.Proofs.Diagnosis
import ThriftIdl.Proofs.Suffix
import ThriftIdl.Proofs.ErrorLayout
import ThriftIdl.Proofs.Separators
import ThriftIdl.Proofs.Document.WellFormed
import ThriftIdl.Proofs.Json.OfDocument
import ThriftIdl.Proofs.Tool.Annotations
import ThriftIdl.Proofs.Tool.Agreement
import ThriftIdl.Proofs.Tool.WalkOrder
import ThriftIdl.Proofs.LongestGap
import ThriftIdl.Proofs.Grammar.Consumption
import ThriftIdl.Proofs.IntegerLiterals
import ThriftIdl.Proofs.NumberForms
import ThriftIdl.Proofs.QuotedTexts
import ThriftIdl.Proofs.FurthestFailure
import ThriftIdl.Proofs.Overwriting
import ThriftIdl.Proofs.Json.Layouts
import ThriftIdl.Proofs.Tool.StrippedLines
import ThriftIdl.Proofs.Binary64.Truncation
import ThriftIdl.Proofs.Json.Doubles

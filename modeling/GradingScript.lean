import GradingScript.Main
import GradingScript.Proofs.Bindings.Held
import GradingScript.Proofs.Bindings.Placeholder
import GradingScript.Proofs.Bindings.Template
import GradingScript.Proofs.CommandLine.Agreement
import GradingScript.Proofs.CommandLine.Discovery
import GradingScript.Proofs.Compile.AssignedName
import GradingScript.Proofs.Compile.Commutation
import GradingScript.Proofs.Compile.Completion
import GradingScript.Proofs.Compile.DeadAssignment
import GradingScript.Proofs.Compile.Effect
import GradingScript.Proofs.Compile.ExtensionList
import GradingScript.Proofs.Compile.FileExtension
import GradingScript.Proofs.Compile.Found
import GradingScript.Proofs.Compile.Grade
import GradingScript.Proofs.Compile.Growth
import GradingScript.Proofs.Compile.Inlining
import GradingScript.Proofs.Compile.Invariant
import GradingScript.Proofs.Compile.Journal
import GradingScript.Proofs.Compile.Registration
import GradingScript.Proofs.Compile.Rejection
import GradingScript.Proofs.Compile.Reports
import GradingScript.Proofs.Compile.SourceOrder
import GradingScript.Proofs.Compile.StepContents
import GradingScript.Proofs.Compile.TextCompletion
import GradingScript.Proofs.Concatenation.Reading
import GradingScript.Proofs.Concatenation.Script
import GradingScript.Proofs.Environment.Answers
import GradingScript.Proofs.Environment.Lineage
import GradingScript.Proofs.Folder.Names
import GradingScript.Proofs.Grammar.Acceptance
import GradingScript.Proofs.Grammar.Basic
import GradingScript.Proofs.Grammar.FirstRefusal
import GradingScript.Proofs.Grammar.Lines
import GradingScript.Proofs.Grammar.MissingEnd
import GradingScript.Proofs.Grammar.Prefix
import GradingScript.Proofs.Grammar.Reading
import GradingScript.Proofs.Layout.Compile
import GradingScript.Proofs.Layout.Reading
import GradingScript.Proofs.Layout.Script
import GradingScript.Proofs.Number
import GradingScript.Proofs.Printing.Basic
import GradingScript.Proofs.Printing.Lexemes
import GradingScript.Proofs.Printing.Reading
import GradingScript.Proofs.Printing.RoundTrip
import GradingScript.Proofs.Reader.Moves
import GradingScript.Proofs.Similarity.Nearest
import GradingScript.Proofs.Similarity.Score
import GradingScript.Proofs.Term.Integers
import GradingScript.Proofs.Term.Value
import GradingScript.Proofs.Term.Writable
import GradingScript.Proofs.Token.Heredoc
import GradingScript.Proofs.Token.IntegerLiteral
import GradingScript.Proofs.Token.Lines
import GradingScript.Proofs.Token.Numerals
import GradingScript.Proofs.Token.Reads
import GradingScript.Proofs.Token.Respacing
import GradingScript.Proofs.Token.Spans
import GradingScript.Proofs.Token.StringLiteral

import PseudoBoolean.Cnf.Basic
import PseudoBoolean.Cnf.Conversion
import PseudoBoolean.CommandLine
import PseudoBoolean.Compile
import PseudoBoolean.Constraint.Basic
import PseudoBoolean.Constraint.Check
import PseudoBoolean.Constraint.Holds
import PseudoBoolean.Constraint.Render
import PseudoBoolean.Describe
import PseudoBoolean.Diagnostic
import PseudoBoolean.Expr.Basic
import PseudoBoolean.Expr.Order
import PseudoBoolean.Expr.Parse
import PseudoBoolean.Expr.Precedence
import PseudoBoolean.Expr.Render
import PseudoBoolean.Inline.Builder
import PseudoBoolean.Inline.Literal
import PseudoBoolean.Inline.Number
import PseudoBoolean.Inline.Reader
import PseudoBoolean.Inline.Token
import PseudoBoolean.Interpretation
import PseudoBoolean.Journal
import PseudoBoolean.Main
import PseudoBoolean.OrderedSet
import PseudoBoolean.Report
import PseudoBoolean.Text.Identifier
import PseudoBoolean.Text.Printable
import PseudoBoolean.Text.Quoted
import PseudoBoolean.Text.Ranges
import PseudoBoolean.Text.WhiteSpace
import PseudoBoolean.Text.Word
import PseudoBoolean.Token.Basic
import PseudoBoolean.Token.Scan
import PseudoBoolean.Proofs.Cnf.Clauses
import PseudoBoolean.Proofs.Cnf.Rewriting
import PseudoBoolean.Proofs.Cnf.Polarity
import PseudoBoolean.Proofs.Cnf.Valuation
import PseudoBoolean.Proofs.Cnf.Canonical
import PseudoBoolean.Proofs.Cnf.WellFormed
import PseudoBoolean.Proofs.Cnf.Termination
import PseudoBoolean.Proofs.Cnf.Meaning
import PseudoBoolean.Proofs.Cnf.Subsumption
import PseudoBoolean.Proofs.Cnf.Members
import PseudoBoolean.Proofs.Constraint.Arithmetic
import PseudoBoolean.Proofs.Constraint.Binding
import PseudoBoolean.Proofs.Constraint.Faithful
import PseudoBoolean.Proofs.Compile
import PseudoBoolean.Proofs.Parse.Grammar
import PseudoBoolean.Proofs.Parse.Language
import PseudoBoolean.Proofs.Parse.Levels
import PseudoBoolean.Proofs.Parse.FirstError
import PseudoBoolean.Proofs.Parse.Descent
import PseudoBoolean.Proofs.Token.Tiling
import PseudoBoolean.Proofs.Token.Spelling
import PseudoBoolean.Proofs.Token.Joining
import PseudoBoolean.Proofs.RoundTrip
import PseudoBoolean.Proofs.ReadBack
import PseudoBoolean.Proofs.Underline
import PseudoBoolean.Proofs.Inline.Token
import PseudoBoolean.Proofs.Inline.Calls
import PseudoBoolean.Proofs.Inline.Variables
import PseudoBoolean.Proofs.Inline.Lockstep
import PseudoBoolean.Proofs.Inline.Agreement
import PseudoBoolean.Proofs.Inline.Descent
import PseudoBoolean.Proofs.Constraint.Search
import PseudoBoolean.Proofs.Constraint.Recovery
import PseudoBoolean.Proofs.Constraint.Disjunction
import PseudoBoolean.Proofs.Order
import PseudoBoolean.Proofs.Dependence
import PseudoBoolean.Proofs.Relabelling
import PseudoBoolean.Proofs.Text.Reading
import PseudoBoolean.Proofs.Text.Expression
import PseudoBoolean.Proofs.Text.Constraint

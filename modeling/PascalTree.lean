import PascalTree.BuildError
import PascalTree.Cli.Arguments
import PascalTree.Cli.Directory
import PascalTree.Cli.Log
import PascalTree.Cli.Run
import PascalTree.Json.Container
import PascalTree.Json.Document
import PascalTree.Json.Fault
import PascalTree.Json.Number
import PascalTree.Json.Reader
import PascalTree.Json.Scalar
import PascalTree.Json.Skip
import PascalTree.Json.Text
import PascalTree.Kind
import PascalTree.Literal.Basic
import PascalTree.Literal.Form
import PascalTree.Literal.Value
import PascalTree.Node.Basic
import PascalTree.Node.Outline
import PascalTree.Node.Walk
import PascalTree.NodeInfo
import PascalTree.Numeric.Binary64
import PascalTree.Numeric.Decimal
import PascalTree.Numeric.Shortest
import PascalTree.Operator
import PascalTree.Report
import PascalTree.SideTable
import PascalTree.Stored.Read
import PascalTree.Stored.Schema
import PascalTree.Stored.Type
import PascalTree.Stored.Write
import PascalTree.Text.Ascii
import PascalTree.Text.CodePoints
import PascalTree.Text.GraphemeExtend
import PascalTree.Text.Lines
import PascalTree.Text.Printable
import PascalTree.Text.Quoted
import PascalTree.Tree.Decl
import PascalTree.Tree.Expr
import PascalTree.Tree.Routine
import PascalTree.Tree.Stmt
import PascalTree.Tree.Weight
import PascalTree.Main
import PascalTree.Proofs.Census
import PascalTree.Proofs.Diagnostics
import PascalTree.Proofs.Equality
import PascalTree.Proofs.Json.Gives
import PascalTree.Proofs.Json.Grammar
import PascalTree.Proofs.Json.Local
import PascalTree.Proofs.Json.Nesting
import PascalTree.Proofs.Json.Reads
import PascalTree.Proofs.Json.Skips
import PascalTree.Proofs.KindCounts
import PascalTree.Proofs.LiteralGrammar
import PascalTree.Proofs.Literals
import PascalTree.Proofs.MapInfo
import PascalTree.Proofs.MapLiterals
import PascalTree.Proofs.NodeNumbers
import PascalTree.Proofs.Numerals
import PascalTree.Proofs.Numeric.Rounding
import PascalTree.Proofs.Obtainable
import PascalTree.Proofs.OutlineDecoding
import PascalTree.Proofs.OutlineLines
import PascalTree.Proofs.Preorder
import PascalTree.Proofs.QuotedTexts
import PascalTree.Proofs.ReportAgreement
import PascalTree.Proofs.RoutineParts
import PascalTree.Proofs.Stored.Accepted
import PascalTree.Proofs.Stored.Conventions
import PascalTree.Proofs.Stored.Damage
import PascalTree.Proofs.Stored.Extension
import PascalTree.Proofs.Stored.FirstRefusal
import PascalTree.Proofs.Stored.Gives
import PascalTree.Proofs.Stored.NumberTokens
import PascalTree.Proofs.Stored.Presentation
import PascalTree.Proofs.Stored.Reads
import PascalTree.Proofs.Stored.RecordForms
import PascalTree.Proofs.Stored.RoundTrip
import PascalTree.Proofs.Stored.Stores
import PascalTree.Proofs.TableRuns
import PascalTree.Proofs.TreeTables
import PascalTree.Proofs.VerboseFlag
import PascalTree.Proofs.Visits

import LoxLang.Command.App
import LoxLang.Command.Flags
import LoxLang.Command.Help
import LoxLang.Command.Script
import LoxLang.Command.Span
import LoxLang.Console
import LoxLang.Console.FileTree
import LoxLang.Console.Memory
import LoxLang.Diagnostic
import LoxLang.Diagnostic.Sink
import LoxLang.History
import LoxLang.Machine
import LoxLang.Machine.Evaluate
import LoxLang.Machine.Operators
import LoxLang.Main
import LoxLang.Number
import LoxLang.Parser
import LoxLang.Parser.Basic
import LoxLang.Parser.Error
import LoxLang.Parser.Expression
import LoxLang.Piece
import LoxLang.Report
import LoxLang.Scanner
import LoxLang.Schema
import LoxLang.Schema.Generator
import LoxLang.Schema.Layout.Columns
import LoxLang.Schema.Layout.Printer
import LoxLang.Schema.Layout.Reader
import LoxLang.Schema.Layout.Tree
import LoxLang.Schema.Layout.Word
import LoxLang.Schema.Lexeme
import LoxLang.Schema.Package
import LoxLang.Schema.Reader
import LoxLang.Scope
import LoxLang.Scope.Forest
import LoxLang.Settings
import LoxLang.Settings.Yaml
import LoxLang.Text.Base64
import LoxLang.Text.Control
import LoxLang.Text.Digit
import LoxLang.Text.Letter
import LoxLang.Text.Lines
import LoxLang.Text.Printable
import LoxLang.Text.Quoted
import LoxLang.Text.Ranges
import LoxLang.Text.Space
import LoxLang.Text.Utf8
import LoxLang.Token
import LoxLang.Tree
import LoxLang.Tree.Dump
import LoxLang.Tree.Outline
import LoxLang.Tree.Printer
import LoxLang.Value
import LoxLang.Yaml.Character
import LoxLang.Yaml.Node
import LoxLang.Yaml.Node.Read
import LoxLang.Yaml.Numeral
import LoxLang.Yaml.Plain
import LoxLang.Yaml.Timestamp
import LoxLang.Yaml.Token
import LoxLang.Yaml.Token.Position
import LoxLang.Yaml.Token.Property
import LoxLang.Yaml.Token.Scalar
import LoxLang.Yaml.Token.Scan
import LoxLang.Yaml.Written
import LoxLang.Proofs.Grammar
import LoxLang.Proofs.Parser.Acceptance
import LoxLang.Proofs.Parser.Progress
import LoxLang.Proofs.Parser.Expression
import LoxLang.Proofs.Parser.Statement
import LoxLang.Proofs.Parser.Program
import LoxLang.Proofs.Machine.Triples
import LoxLang.Proofs.Machine.Visits
import LoxLang.Proofs.Machine.Safety
import LoxLang.Proofs.Safety
import LoxLang.Proofs.Scanner.Pieces
import LoxLang.Proofs.Scanner.Tokens
import LoxLang.Proofs.Text.Utf8
import LoxLang.Proofs.Parser.Moved
import LoxLang.Proofs.Machine.Moved
import LoxLang.Proofs.Splitting
import LoxLang.Proofs.Nesting
import LoxLang.Proofs.Machine.Scopes
import LoxLang.Proofs.Resolution
import LoxLang.Proofs.Scanner.Tiling
import LoxLang.Proofs.Arithmetic
import LoxLang.Proofs.Reformatting
import LoxLang.Proofs.Restoration
import LoxLang.Proofs.Cursor
import LoxLang.Proofs.Cursor.Agreement
import LoxLang.Proofs.Cursor.Simulation
import LoxLang.Proofs.Totality
import LoxLang.Proofs.Recovery
import LoxLang.Proofs.Parser.Guard
import LoxLang.Proofs.Placeholders
import LoxLang.Proofs.Scanner.LongestMatch
import LoxLang.Proofs.Machine.Output
import LoxLang.Proofs.Script
import LoxLang.Proofs.Scanner.ReadFailure
import LoxLang.Proofs.Frame
import LoxLang.Proofs.ScopeTree
import LoxLang.Proofs.DepthLimit
import LoxLang.Proofs.Blame
import LoxLang.Proofs.SessionLines
import LoxLang.Proofs.Severity
import LoxLang.Proofs.Number.Bits
import LoxLang.Proofs.NumberText
import LoxLang.Proofs.Tree.Form
import LoxLang.Proofs.Tree.Shape
import LoxLang.Proofs.PrintedTree
import LoxLang.Proofs.Number.Decimal
import LoxLang.Proofs.Number.Rounding
import LoxLang.Proofs.Number.Rendering
import LoxLang.Proofs.PrintedLiteral
import LoxLang.Proofs.Schema.Receivers
import LoxLang.Proofs.Yaml.Folding
import LoxLang.Proofs.Yaml.Cutting
import LoxLang.Proofs.Yaml.FlatMapping
import LoxLang.Proofs.Yaml.Numerals
import LoxLang.Proofs.FileTree
import LoxLang.Proofs.SavedSettings

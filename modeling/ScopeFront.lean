import ScopeFront.CommandLine
import ScopeFront.Dump
import ScopeFront.Error
import ScopeFront.Event
import ScopeFront.Expr
import ScopeFront.FileTree
import ScopeFront.Json
import ScopeFront.Keyword
import ScopeFront.Main
import ScopeFront.Node
import ScopeFront.Parser.Expression
import ScopeFront.Parser.Forest
import ScopeFront.Parser.Rule
import ScopeFront.Parser.Statement
import ScopeFront.Program
import ScopeFront.Proofs.Concatenation
import ScopeFront.Proofs.ErrorPlaces
import ScopeFront.Proofs.ExpressionText
import ScopeFront.Proofs.Grammar
import ScopeFront.Proofs.Layout
import ScopeFront.Proofs.Lexer.Categories
import ScopeFront.Proofs.Lexer.Comments
import ScopeFront.Proofs.Lexer.Concatenation
import ScopeFront.Proofs.Lexer.Lines
import ScopeFront.Proofs.Lexer.Patterns
import ScopeFront.Proofs.Lexer.Policies
import ScopeFront.Proofs.Lexer.Rejoining
import ScopeFront.Proofs.Lexer.Segmentation
import ScopeFront.Proofs.Logging
import ScopeFront.Proofs.Nesting
import ScopeFront.Proofs.OpenBraces
import ScopeFront.Proofs.Parser.Acceptance
import ScopeFront.Proofs.Parser.Alike
import ScopeFront.Proofs.Parser.Completeness
import ScopeFront.Proofs.Parser.CorrectPrefix
import ScopeFront.Proofs.Parser.Dispatch
import ScopeFront.Proofs.Parser.Exactness
import ScopeFront.Proofs.Parser.Language
import ScopeFront.Proofs.Parser.Lookahead
import ScopeFront.Proofs.Parser.Mirror
import ScopeFront.Proofs.Parser.Moves
import ScopeFront.Proofs.Parser.NestingLimit
import ScopeFront.Proofs.Parser.Operations
import ScopeFront.Proofs.Parser.Reading
import ScopeFront.Proofs.Parser.Soundness
import ScopeFront.Proofs.Parser.Steps
import ScopeFront.Proofs.Printer
import ScopeFront.Proofs.Relocation
import ScopeFront.Proofs.ScopeNames
import ScopeFront.Proofs.SourceErrors
import ScopeFront.Proofs.TreeHeight
import ScopeFront.Proofs.TreeView
import ScopeFront.Report
import ScopeFront.Run
import ScopeFront.Scan
import ScopeFront.Segment
import ScopeFront.Settings
import ScopeFront.Settings.Lexical
import ScopeFront.Settings.Number
import ScopeFront.Settings.Reader
import ScopeFront.Settings.Skip
import ScopeFront.Span
import ScopeFront.Text.Blank
import ScopeFront.Text.CodeRange
import ScopeFront.Text.Quoted
import ScopeFront.Text.Unprinted
import ScopeFront.Text.WordChar
import ScopeFront.Token
import ScopeFront.Tree
import ScopeFront.Proofs.QuotedText
import ScopeFront.Proofs.TreeWalk
import ScopeFront.Proofs.Outline
import ScopeFront.Proofs.TreeShape
import ScopeFront.Proofs.JsonText
import ScopeFront.Proofs.JsonView
import ScopeFront.Proofs.Lexer.Rescanning
import ScopeFront.Proofs.Caret
import ScopeFront.Proofs.BatchCheck
import ScopeFront.Proofs.Settings.JsonGrammar
import ScopeFront.Proofs.Settings.FieldOrder
import ScopeFront.Proofs.Parser.Routine
import ScopeFront.Proofs.Parser.Acts
import ScopeFront.Proofs.Parser.Recursion
import ScopeFront.Proofs.Lexer.Progress
import ScopeFront.Proofs.Progress
import ScopeFront.Proofs.Counters

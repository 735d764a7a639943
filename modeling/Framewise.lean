import Framewise.Binding.Basic
import Framewise.Binding.Classify
import Framewise.Binding.Store
import Framewise.Binding.Summary
import Framewise.Binding.Tracker
import Framewise.Command.Argument
import Framewise.Command.Check
import Framewise.Command.Program
import Framewise.Command.Request
import Framewise.Command.RuleTable
import Framewise.Diagnostic.Basic
import Framewise.Diagnostic.Report
import Framewise.Diagnostic.Resolve
import Framewise.Diagnostic.Schema
import Framewise.Diagnostic.Severity
import Framewise.Engine.Log
import Framewise.Engine.Run
import Framewise.Engine.Script
import Framewise.Engine.Traversal
import Framewise.File.Path
import Framewise.File.Tree
import Framewise.Frame.Shape
import Framewise.Frame.Vocabulary
import Framewise.Ident
import Framewise.Json.Printer
import Framewise.Json.Reader
import Framewise.Main
import Framewise.Node.Basic
import Framewise.Node.Kind
import Framewise.Node.Mapping
import Framewise.Number.Basic
import Framewise.Number.Double
import Framewise.Number.Read
import Framewise.Number.Shortest
import Framewise.Rule.AttributeColumn
import Framewise.Rule.BareMask
import Framewise.Rule.Basic
import Framewise.Rule.Catalog
import Framewise.Rule.FillerColumn
import Framewise.Rule.ImplicitMerge
import Framewise.Rule.InPlace
import Framewise.Rule.ParameterMutation
import Framewise.Rule.UnpinnedSchema
import Framewise.Schema.Problem
import Framewise.Schema.Read
import Framewise.Script.Grammar.Basic
import Framewise.Script.Grammar.Expression
import Framewise.Script.Grammar.Pattern
import Framewise.Script.Grammar.Statement
import Framewise.Script.Lexeme
import Framewise.Script.Lexer
import Framewise.Script.Literal
import Framewise.Script.Syntax
import Framewise.Script.Token
import Framewise.Script.Tree
import Framewise.Settings.Basic
import Framewise.Settings.Load
import Framewise.Source.SourceText
import Framewise.Source.Span
import Framewise.Suppression
import Framewise.Text.Blank
import Framewise.Text.CodeSet
import Framewise.Text.Identifier
import Framewise.Text.Letter
import Framewise.Text.Lines
import Framewise.Text.Markup
import Framewise.Text.Numeral
import Framewise.Text.Order
import Framewise.Text.Printable
import Framewise.Text.Quoted
import Framewise.Text.Split
import Framewise.Text.Upper
import Framewise.Text.Utf8
import Framewise.Text.Word
import Framewise.Toml.Document
import Framewise.Toml.Lexeme
import Framewise.Toml.Scalar
import Framewise.Toml.Table
import Framewise.Value
import Framewise.Proofs.Passage
import Framewise.Proofs.ScopeDiscipline
import Framewise.Proofs.Itinerary
import Framewise.Proofs.Route
import Framewise.Proofs.Abstraction
import Framewise.Proofs.Coverage
import Framewise.Proofs.Policies
import Framewise.Proofs.Report
import Framewise.Proofs.RuleIndependence
import Framewise.Proofs.ReportContents
import Framewise.Proofs.Writes
import Framewise.Proofs.Coherence
import Framewise.Proofs.Chronicle
import Framewise.Proofs.BindingInvariant
import Framewise.Proofs.CrashFreedom
import Framewise.Proofs.BoundNames
import Framewise.Proofs.LoopPasses
import Framewise.Proofs.Deadline
import Framewise.Proofs.Silencing
import Framewise.Proofs.Outline
import Framewise.Proofs.Reading
import Framewise.Proofs.ExpressionPlaces
import Framewise.Proofs.StatementPlaces
import Framewise.Proofs.TokenPlaces
import Framewise.Proofs.Rendering
import Framewise.Proofs.Representation
import Framewise.Proofs.FrontEnds
import Framewise.Proofs.RefusedEntries
import Framewise.Proofs.ReportAgreement
import Framewise.Proofs.JsonGrammar
import Framewise.Proofs.DistinctFindings
import Framewise.Proofs.ReportDocument
import Framewise.Proofs.UntouchedNames
import Framewise.Proofs.MergeOrder
import Framewise.Proofs.Alternatives
import Framewise.Proofs.StillNodes
import Framewise.Proofs.StraightBodies
import Framewise.Proofs.UnpinnedUses
import Framewise.Proofs.LatestAssignments
import Framewise.Proofs.ScriptRows
import Framewise.Proofs.LexerSteps
import Framewise.Proofs.RegularLayout
import Framewise.Proofs.NodeText
import Framewise.Proofs.BareSyntax
import Framewise.Proofs.Endings
import Framewise.Proofs.TracedSyntax
import Framewise.Proofs.TracedExpressions
import Framewise.Proofs.SelectionChains
import Framewise.Proofs.FrameMerges
import Framewise.Proofs.WellFormedTrees
import Framewise.Proofs.LoadedSettings
import Framewise.Proofs.TracedStatements
import Framewise.Proofs.TracedTrees
import Framewise.Proofs.ComposedLexing
import Framewise.Proofs.PlainAssignments
import Framewise.Proofs.QuotedStrings
import Framewise.Proofs.SpelledSyntax
import Framewise.Proofs.RereadPhrases
import Framewise.Proofs.SpacedTokens
import Framewise.Proofs.PastedLabels
import Framewise.Proofs.TreeWalks
import Framewise.Proofs.SliceComposition
import Framewise.Proofs.ListedCodes

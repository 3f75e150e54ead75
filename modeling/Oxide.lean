import Oxide.Command
import Oxide.Command.Flags
import Oxide.Document
import Oxide.Document.Binary
import Oxide.Document.Block
import Oxide.Document.Character
import Oxide.Document.Comment
import Oxide.Document.Composition
import Oxide.Document.Cursor
import Oxide.Document.Directive
import Oxide.Document.Fault
import Oxide.Document.Gap
import Oxide.Document.Lexeme
import Oxide.Document.Lexer
import Oxide.Document.Lexer.Spacing
import Oxide.Document.Lexer.State
import Oxide.Document.Node
import Oxide.Document.Number
import Oxide.Document.Plain
import Oxide.Document.Portion
import Oxide.Document.Quotation
import Oxide.Document.Source
import Oxide.Document.Tag
import Oxide.Document.TagNotation
import Oxide.Document.Timestamp
import Oxide.Document.Value
import Oxide.Document.Visits
import Oxide.Failure
import Oxide.Host
import Oxide.Layout
import Oxide.Layout.DocComment
import Oxide.Lower.Binding
import Oxide.Lower.Constant
import Oxide.Lower.Context
import Oxide.Lower.Expr
import Oxide.Lower.Fault
import Oxide.Lower.Module
import Oxide.Lower.Params
import Oxide.Lower.Stmt
import Oxide.Lower.Target
import Oxide.Main
import Oxide.Options
import Oxide.Options.Reader
import Oxide.Program
import Oxide.Proofs.AbsentParts
import Oxide.Proofs.Acceptance
import Oxide.Proofs.AllOrNothing
import Oxide.Proofs.Bare
import Oxide.Proofs.BlockSegments
import Oxide.Proofs.BoundNames
import Oxide.Proofs.BraceBalance
import Oxide.Proofs.CanonicalTrees
import Oxide.Proofs.Changes
import Oxide.Proofs.CommentLines
import Oxide.Proofs.ComposedDumps
import Oxide.Proofs.CountedRanges
import Oxide.Proofs.DefinitionOrder
import Oxide.Proofs.Delimiters
import Oxide.Proofs.DistinctDumps
import Oxide.Proofs.DumpForms
import Oxide.Proofs.EscapedNames
import Oxide.Proofs.ExprEmission
import Oxide.Proofs.FieldsRead
import Oxide.Proofs.Forms
import Oxide.Proofs.FrontDeclarations
import Oxide.Proofs.Grammar
import Oxide.Proofs.Hoisting
import Oxide.Proofs.Indentation
import Oxide.Proofs.IntegerArithmetic
import Oxide.Proofs.LinearPatterns
import Oxide.Proofs.Lines
import Oxide.Proofs.Marks
import Oxide.Proofs.MembershipTests
import Oxide.Proofs.ModuleEmission
import Oxide.Proofs.NamesInScope
import Oxide.Proofs.NestedFunctions
import Oxide.Proofs.ObjectLeaves
import Oxide.Proofs.OperatorStructure
import Oxide.Proofs.OutputSettings
import Oxide.Proofs.ParameterDefaults
import Oxide.Proofs.PathParts
import Oxide.Proofs.Phrases
import Oxide.Proofs.ReadBack
import Oxide.Proofs.ReadParts
import Oxide.Proofs.ReadResults
import Oxide.Proofs.RegisteredNames
import Oxide.Proofs.RepeatedOperands
import Oxide.Proofs.Roles
import Oxide.Proofs.ScopeHistory
import Oxide.Proofs.Scopes
import Oxide.Proofs.Scoping
import Oxide.Proofs.Sites
import Oxide.Proofs.Spots
import Oxide.Proofs.StmtEmission
import Oxide.Proofs.StringLiterals
import Oxide.Proofs.TableView
import Oxide.Proofs.Traces
import Oxide.Proofs.TreeDocuments
import Oxide.Proofs.TypeBrackets
import Oxide.Proofs.TypeTokens
import Oxide.Proofs.VisibleText
import Oxide.Proofs.Waiting
import Oxide.Proofs.WholeReadings
import Oxide.Proofs.WholeTrees
import Oxide.Proofs.WordSpacing
import Oxide.Proofs.Words
import Oxide.Proofs.WrittenNames
import Oxide.Scope
import Oxide.Text.Bytes
import Oxide.Text.Printable
import Oxide.Text.Quoted
import Oxide.Token
import Oxide.Tree.Dump
import Oxide.Tree.Expr
import Oxide.Tree.Reader
import Oxide.Tree.Stmt
import Oxide.Ty
import Oxide.Ty.Hint
import Oxide.Workspace

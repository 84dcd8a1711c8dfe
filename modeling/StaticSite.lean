import StaticSite.Text.Lines
import StaticSite.Text.Quoted
import StaticSite.Text.Escaped
import StaticSite.Number.Notation
import StaticSite.Number.Numeral
import StaticSite.Value.Basic
import StaticSite.Json.Reader
import StaticSite.Json.Printer
import StaticSite.Formatting.Outcome
import StaticSite.Tree.Load
import StaticSite.Tree.Dump
import StaticSite.Tree.Walk
import StaticSite.Widget.Render
import StaticSite.Site.Stylesheet
import StaticSite.Site.Script
import StaticSite.Site.Document
import StaticSite.Site.Markup
import StaticSite.Site.Project
import StaticSite.Report.Problem
import StaticSite.Theme.Store
import StaticSite.Editor
import StaticSite.Archive.Entry
import StaticSite.Text.Utf8
import StaticSite.Workspace.Path
import StaticSite.Workspace.Files
import StaticSite.Report.Faults
import StaticSite.Archive.Export
import StaticSite.Toml.Document
import StaticSite.Workspace.Config
import StaticSite.Command.Usage
import StaticSite.Command.Arguments
import StaticSite.Command.Run
import StaticSite.Archive.Bytes
import StaticSite.Main
import StaticSite.Proofs.Stylesheet.Lexing
import StaticSite.Proofs.Stylesheet.Statement
import StaticSite.Proofs.Stylesheet.Declaration
import StaticSite.Proofs.Stylesheet.Selectors
import StaticSite.Proofs.Stylesheet.Reading
import StaticSite.Proofs.Stylesheet.Rereading
import StaticSite.Proofs.Stylesheet.Stability
import StaticSite.Proofs.Markup.Escaping
import StaticSite.Proofs.Markup.Tag
import StaticSite.Proofs.Markup.Reads
import StaticSite.Proofs.Markup.Outline
import StaticSite.Proofs.Widget.Element
import StaticSite.Proofs.Widget.Render
import StaticSite.Proofs.Site.Markup
import StaticSite.Proofs.Markup.Constructs
import StaticSite.Proofs.Text.LowerCase
import StaticSite.Proofs.Markup.Attributes
import StaticSite.Proofs.Markup.Raw
import StaticSite.Proofs.Markup.Gathering
import StaticSite.Proofs.Markup.Tokens
import StaticSite.Proofs.Markup.Sound
import StaticSite.Proofs.Site.Failure
import StaticSite.Proofs.Tree.Reloading
import StaticSite.Proofs.Site.Reloading
import StaticSite.Proofs.Workspace.Files
import StaticSite.Proofs.Command.Agreement
import StaticSite.Proofs.Stylesheet.Soundness
import StaticSite.Proofs.Stylesheet.Sequence
import StaticSite.Proofs.Stylesheet.Composition
import StaticSite.Proofs.Stylesheet.Insertion
import StaticSite.Proofs.Site.Property
import StaticSite.Proofs.Site.Scoping
import StaticSite.Proofs.Site.Rule
import StaticSite.Proofs.Site.Animation
import StaticSite.Proofs.Site.Stylesheet
import StaticSite.Proofs.Text.Pieces
import StaticSite.Proofs.Text.Words
import StaticSite.Proofs.Text.Lines
import StaticSite.Proofs.Stylesheet.Blanks
import StaticSite.Proofs.Markup.Whole
import StaticSite.Proofs.Markup.Moving
import StaticSite.Proofs.Markup.Weaving
import StaticSite.Proofs.Markup.Blocks
import StaticSite.Proofs.Site.Page
import StaticSite.Proofs.Widget.Flags
import StaticSite.Proofs.Site.Triggers
import StaticSite.Proofs.Script.Literal
import StaticSite.Proofs.Stylesheet.Identifier
import StaticSite.Proofs.Site.Anchors
import StaticSite.Proofs.Workspace.Config
import StaticSite.Proofs.Command.Ending
import StaticSite.Proofs.Archive.Saving
import StaticSite.Proofs.Markup.Balance
import StaticSite.Proofs.Markup.Piece
import StaticSite.Proofs.Markup.RawLines
import StaticSite.Proofs.Markup.Spreading
import StaticSite.Proofs.Markup.Touching
import StaticSite.Proofs.Stylesheet.Grammar
import StaticSite.Proofs.Stylesheet.Spacing
import StaticSite.Proofs.Stylesheet.Entries
import StaticSite.Proofs.Stylesheet.SingleDeclaration
import StaticSite.Proofs.Site.Block
import StaticSite.Proofs.Site.BaseRules
import StaticSite.Proofs.Site.Keyframes
import StaticSite.Proofs.Site.Hoisting
import StaticSite.Proofs.Widget.Values
import StaticSite.Proofs.Theme.Properties
import StaticSite.Proofs.Theme.History
import StaticSite.Proofs.Text.Squeeze
import StaticSite.Proofs.Text.Margin
import StaticSite.Proofs.Stylesheet.Indenting
import StaticSite.Proofs.Markup.RawFixpoint
import StaticSite.Proofs.Markup.Rereading
import StaticSite.Proofs.Markup.Trimming
import StaticSite.Proofs.Markup.Fixpoint
import StaticSite.Proofs.Text.Indenting
import StaticSite.Proofs.Site.Document
import StaticSite.Proofs.Site.Script
import StaticSite.Proofs.Site.StyleValues
import StaticSite.Proofs.Stylesheet.Rows
import StaticSite.Proofs.Stylesheet.TokenRows
import StaticSite.Proofs.Stylesheet.Canonical
import StaticSite.Proofs.Tree.Order
import StaticSite.Proofs.Stylesheet.SelectorList
import StaticSite.Proofs.Site.PropertyName
import StaticSite.Proofs.Markup.ScriptLines

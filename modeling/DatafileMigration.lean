import DatafileMigration.Batch.Migrate
import DatafileMigration.Batch.Normal
import DatafileMigration.Batch.Notice
import DatafileMigration.Batch.Reference
import DatafileMigration.Column.Default
import DatafileMigration.Column.Read
import DatafileMigration.Column.Shape
import DatafileMigration.Column.Type
import DatafileMigration.CommandLine.Answer
import DatafileMigration.CommandLine.Arguments
import DatafileMigration.CommandLine.Environment
import DatafileMigration.Datafile.Block
import DatafileMigration.Datafile.Directive
import DatafileMigration.Datafile.Value
import DatafileMigration.Grammar.Column
import DatafileMigration.Grammar.Connection
import DatafileMigration.Grammar.Datasource
import DatafileMigration.Grammar.Directive
import DatafileMigration.Grammar.Error
import DatafileMigration.Grammar.Parse
import DatafileMigration.Grammar.Pipe
import DatafileMigration.Literal.Basic
import DatafileMigration.Literal.Json
import DatafileMigration.Literal.Render
import DatafileMigration.Main
import DatafileMigration.Module.Assembly
import DatafileMigration.Module.Connection
import DatafileMigration.Module.Datasource
import DatafileMigration.Module.Identifier
import DatafileMigration.Module.Layout
import DatafileMigration.Module.ParameterBuilder
import DatafileMigration.Module.Pipe
import DatafileMigration.Module.Registry
import DatafileMigration.Module.RenderError
import DatafileMigration.Module.Statement
import DatafileMigration.Number.Binary64
import DatafileMigration.Number.Plain
import DatafileMigration.Number.Shortest
import DatafileMigration.Number.Signed
import DatafileMigration.Project.Discovery
import DatafileMigration.Project.Glob
import DatafileMigration.Project.Include
import DatafileMigration.Project.Path
import DatafileMigration.Project.Run
import DatafileMigration.Project.Save
import DatafileMigration.Project.Segment
import DatafileMigration.Project.Tree
import DatafileMigration.Project.Wildcard
import DatafileMigration.Proofs.Batch.Account
import DatafileMigration.Proofs.Batch.Complete
import DatafileMigration.Proofs.Batch.Isolation
import DatafileMigration.Proofs.Batch.Outcome
import DatafileMigration.Proofs.Batch.Removal
import DatafileMigration.Proofs.Batch.Stages
import DatafileMigration.Proofs.Datafile.Indentation
import DatafileMigration.Proofs.Fault.Breaks
import DatafileMigration.Proofs.Fault.Yields
import DatafileMigration.Proofs.Grammar.Identity
import DatafileMigration.Proofs.Grammar.LongNumber
import DatafileMigration.Proofs.Module.Check
import DatafileMigration.Proofs.Module.LongDefault
import DatafileMigration.Proofs.Module.Order
import DatafileMigration.Proofs.Number.LongInteger
import DatafileMigration.Proofs.Project.Place
import DatafileMigration.Proofs.Query.StrayLetter
import DatafileMigration.Proofs.Template.LongOption
import DatafileMigration.Proofs.Text.Join
import DatafileMigration.Proofs.Text.Lines
import DatafileMigration.Proofs.Text.Order
import DatafileMigration.Proofs.Text.Strip
import DatafileMigration.Query.Keyword
import DatafileMigration.Query.OutputColumns
import DatafileMigration.Resource.Basic
import DatafileMigration.Resource.Kind
import DatafileMigration.Resource.Record
import DatafileMigration.Resource.Violation
import DatafileMigration.Template.Call
import DatafileMigration.Template.Normalize
import DatafileMigration.Template.Parameter
import DatafileMigration.Template.ParameterType
import DatafileMigration.Template.Placeholder
import DatafileMigration.Text.Basic
import DatafileMigration.Text.Blank
import DatafileMigration.Text.Case
import DatafileMigration.Text.Digit
import DatafileMigration.Text.Letter
import DatafileMigration.Text.Printable
import DatafileMigration.Text.Quoted
import DatafileMigration.Text.TopLevel
import DatafileMigration.Text.Utf8
import DatafileMigration.Proofs.Datafile.Canonical
import DatafileMigration.Proofs.Module.Naming
import DatafileMigration.Proofs.Module.Shadow
import DatafileMigration.Proofs.Script.Reader
import DatafileMigration.Proofs.Script.Content
import DatafileMigration.Proofs.Script.Scan
import DatafileMigration.Proofs.Script.Expression
import DatafileMigration.Proofs.Script.Numeral
import DatafileMigration.Proofs.Script.Texts
import DatafileMigration.Proofs.Script.Value
import DatafileMigration.Proofs.Module.Snake
import DatafileMigration.Proofs.Script.Argument
import DatafileMigration.Proofs.Script.Column
import DatafileMigration.Proofs.Script.Datasource
import DatafileMigration.Proofs.Script.Resource
import DatafileMigration.Proofs.Module.Layout
import DatafileMigration.Proofs.Script.Module
import DatafileMigration.Proofs.Module.Reference
import DatafileMigration.Proofs.Script.Definition
import DatafileMigration.Proofs.Text.TopLevel
import DatafileMigration.Proofs.Text.Word
import DatafileMigration.Proofs.Template.Quotes
import DatafileMigration.Proofs.Template.Calls
import DatafileMigration.Proofs.Template.Reduced
import DatafileMigration.Proofs.Template.Pieces
import DatafileMigration.Proofs.Template.Segments
import DatafileMigration.Proofs.Template.Preservation
import DatafileMigration.Proofs.Template.Default
import DatafileMigration.Proofs.Template.Joined
import DatafileMigration.Proofs.Grammar.Query
import DatafileMigration.Proofs.Column.Layer
import DatafileMigration.Proofs.Column.Member
import DatafileMigration.Proofs.Column.Reading
import DatafileMigration.Proofs.Module.Strictness
import DatafileMigration.Proofs.Project.Written
import DatafileMigration.Proofs.Project.Name
import DatafileMigration.Proofs.Project.Save
import DatafileMigration.Proofs.Project.Effect
import DatafileMigration.Proofs.Project.Walk
import DatafileMigration.Proofs.Project.Rediscovery
import DatafileMigration.Proofs.Project.Rerun
import DatafileMigration.Proofs.Batch.Reference
import DatafileMigration.Proofs.Batch.Warning
import DatafileMigration.Proofs.Resource.Record
import DatafileMigration.Proofs.Grammar.Refusal
import DatafileMigration.Proofs.Grammar.Validity
import DatafileMigration.Proofs.Batch.Selection
import DatafileMigration.Proofs.Fault.Parts
import DatafileMigration.Proofs.Grammar.Order
import DatafileMigration.Proofs.Grammar.Phase
import DatafileMigration.Proofs.Grammar.Nodes
import DatafileMigration.Proofs.Grammar.Quotation
import DatafileMigration.Proofs.Grammar.Column
import DatafileMigration.Proofs.Project.Shown
import DatafileMigration.Proofs.Literal.Quoted
import DatafileMigration.Proofs.Datafile.Lines
import DatafileMigration.Proofs.Grammar.Exchange
import DatafileMigration.Proofs.Grammar.Layout
import DatafileMigration.Proofs.Grammar.Keys
import DatafileMigration.Proofs.Grammar.QuotedName
import DatafileMigration.Proofs.Script.Phrase
import DatafileMigration.Proofs.Script.Display
import DatafileMigration.Proofs.Script.ColumnType
import DatafileMigration.Proofs.Column.Enumeration
import DatafileMigration.Proofs.Module.Schema
import DatafileMigration.Proofs.Module.JsonPath
import DatafileMigration.Proofs.Grammar.Schemas
import DatafileMigration.Proofs.Script.Entry
import DatafileMigration.Proofs.Module.SchemaMapping
import DatafileMigration.Proofs.Template.Merging
import DatafileMigration.Proofs.Template.Occurrence
import DatafileMigration.Proofs.Template.Options
import DatafileMigration.Proofs.Template.Optional
import DatafileMigration.Proofs.Template.TextDefault
import DatafileMigration.Proofs.Grammar.Described
import DatafileMigration.Proofs.Script.StringLiteral
import DatafileMigration.Proofs.Script.Evaluation
import DatafileMigration.Proofs.Query.Keywords
import DatafileMigration.Proofs.Query.Expression
import DatafileMigration.Proofs.Query.Alias
import DatafileMigration.Proofs.Query.SelectList
import DatafileMigration.Proofs.Query.Comment
import DatafileMigration.Proofs.Project.Match
import DatafileMigration.Proofs.Project.Expansion
import DatafileMigration.Proofs.Project.Include
import DatafileMigration.Proofs.Query.Reading
import DatafileMigration.Proofs.Query.Escape
import DatafileMigration.Proofs.Module.NormalForm
import DatafileMigration.Proofs.Module.Registration
import DatafileMigration.Proofs.Script.Heads
import DatafileMigration.Proofs.Script.Usage
import DatafileMigration.Proofs.Script.Call
import DatafileMigration.Proofs.Module.Usage
import DatafileMigration.Proofs.Module.Imports
import DatafileMigration.Proofs.Module.Recovery
import DatafileMigration.Proofs.Text.Cut
import DatafileMigration.Proofs.Datafile.Extent
import DatafileMigration.Proofs.Column.Wrapping

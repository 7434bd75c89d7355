import Pagesmith.Block.Basic
import Pagesmith.Block.Definitions
import Pagesmith.Block.Registry
import Pagesmith.Check.Program
import Pagesmith.CommandLine
import Pagesmith.Decimal
import Pagesmith.Html.Escape
import Pagesmith.Json.Basic
import Pagesmith.Json.Reader
import Pagesmith.Json.Records
import Pagesmith.Json.Text
import Pagesmith.Main
import Pagesmith.Page.Document
import Pagesmith.Page.Render
import Pagesmith.Proofs.Block.Registry
import Pagesmith.Proofs.Block.Schema
import Pagesmith.Proofs.Block.Session
import Pagesmith.Proofs.Check.Reports
import Pagesmith.Proofs.Decimal.Characters
import Pagesmith.Proofs.Html.Inert
import Pagesmith.Proofs.Html.Sanitize
import Pagesmith.Proofs.Json.Fields
import Pagesmith.Proofs.Json.Reading
import Pagesmith.Proofs.Json.RoundTrip
import Pagesmith.Proofs.Json.Texts
import Pagesmith.Proofs.Page.Authorship
import Pagesmith.Proofs.Page.BlockScope
import Pagesmith.Proofs.Page.DocumentHead
import Pagesmith.Proofs.Page.EscapeAtOutput
import Pagesmith.Proofs.Page.Isolation
import Pagesmith.Proofs.Page.ThemeLeaves
import Pagesmith.Proofs.Page.ThemeNames
import Pagesmith.Proofs.Page.ThemeRule
import Pagesmith.Proofs.Record.Drafts
import Pagesmith.Proofs.Results
import Pagesmith.Proofs.Store.ActiveTheme
import Pagesmith.Proofs.Store.Conflicts
import Pagesmith.Proofs.Store.Conversation
import Pagesmith.Proofs.Store.Creation
import Pagesmith.Proofs.Store.Database
import Pagesmith.Proofs.Store.Discipline
import Pagesmith.Proofs.Store.Jobs
import Pagesmith.Proofs.Store.LastNumber
import Pagesmith.Proofs.Store.Numbering
import Pagesmith.Proofs.Store.Operator
import Pagesmith.Proofs.Store.PageHistory
import Pagesmith.Proofs.Store.Retrying
import Pagesmith.Proofs.Store.Settings
import Pagesmith.Proofs.Store.Snapshots
import Pagesmith.Proofs.Store.ThemeTable
import Pagesmith.Proofs.Store.Transaction
import Pagesmith.Proofs.Store.TypeRows
import Pagesmith.Proofs.Store.Writes
import Pagesmith.Proofs.Template.Concatenation
import Pagesmith.Proofs.Template.Grammar
import Pagesmith.Proofs.Template.Image
import Pagesmith.Proofs.Template.NullFields
import Pagesmith.Proofs.Template.Paths
import Pagesmith.Proofs.Template.Printing
import Pagesmith.Proofs.Template.Run
import Pagesmith.Proofs.Template.Sections
import Pagesmith.Proofs.Template.Stretches
import Pagesmith.Proofs.Template.Tokens
import Pagesmith.Proofs.Text.Cutting
import Pagesmith.Proofs.Text.Words
import Pagesmith.Record
import Pagesmith.Store.Config
import Pagesmith.Store.Error
import Pagesmith.Store.Operator
import Pagesmith.Store.Pages
import Pagesmith.Store.Program
import Pagesmith.Store.Record
import Pagesmith.Store.Script
import Pagesmith.Store.Setup
import Pagesmith.Store.Versioning
import Pagesmith.Template.Compile
import Pagesmith.Template.Directive
import Pagesmith.Template.Render
import Pagesmith.Text.Quoted
import Pagesmith.Text.Words
import Pagesmith.Yaml.Cursor
import Pagesmith.Yaml.Document
import Pagesmith.Yaml.Scalar
import Pagesmith.Yaml.Token
import Pagesmith.Yaml.Tree
import Pagesmith.Yaml.Value

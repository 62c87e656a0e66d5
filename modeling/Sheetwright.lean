import Sheetwright.Archive.Checksum
import Sheetwright.Archive.Inflate
import Sheetwright.Archive.Zip
import Sheetwright.Attribute
import Sheetwright.Code
import Sheetwright.Code.Arguments
import Sheetwright.Code.Slots
import Sheetwright.Collection
import Sheetwright.Command
import Sheetwright.Command.Line
import Sheetwright.Datum
import Sheetwright.Datum.Json
import Sheetwright.Datum.Yaml
import Sheetwright.Datum.Yaml.Cursor
import Sheetwright.Datum.Yaml.Scalar
import Sheetwright.Diagnostic
import Sheetwright.Diagnostic.Arguments
import Sheetwright.Document
import Sheetwright.Document.Fault
import Sheetwright.Document.Session
import Sheetwright.Entries
import Sheetwright.Field
import Sheetwright.Files.Disk
import Sheetwright.Files.Fault
import Sheetwright.Files.Path
import Sheetwright.Files.Text
import Sheetwright.Files.Tree
import Sheetwright.Formula.Relocation
import Sheetwright.Formula.Token
import Sheetwright.Grid.Cell
import Sheetwright.Grid.Column
import Sheetwright.Grid.Fault
import Sheetwright.Grid.Position
import Sheetwright.Grid.Range
import Sheetwright.Grid.Sheet
import Sheetwright.Grid.Sheet.Merge
import Sheetwright.Grid.Sheet.Rows
import Sheetwright.Grid.Style
import Sheetwright.Layout
import Sheetwright.Markup.Xml
import Sheetwright.Number.Binary
import Sheetwright.Number.Shortest
import Sheetwright.Record
import Sheetwright.Record.Arguments
import Sheetwright.Record.Fragment
import Sheetwright.Record.Reader
import Sheetwright.Record.Span
import Sheetwright.Reference
import Sheetwright.Reference.Loading
import Sheetwright.Run
import Sheetwright.Run.Arguments
import Sheetwright.Run.Result
import Sheetwright.Settings
import Sheetwright.Template
import Sheetwright.Text.Blank
import Sheetwright.Text.Case
import Sheetwright.Text.Digit
import Sheetwright.Text.Integer
import Sheetwright.Text.Letter
import Sheetwright.Text.Line
import Sheetwright.Text.Quoted
import Sheetwright.Text.Search
import Sheetwright.Text.Utf8
import Sheetwright.Validation
import Sheetwright.Validation.Input
import Sheetwright.Validation.Value
import Sheetwright.Workbook
import Sheetwright.Workbook.Block
import Sheetwright.Workbook.Package
import Sheetwright.Workbook.Package.Sheet
import Sheetwright.Workbook.Package.Styles
import Sheetwright.Workbook.Storage
import Sheetwright.Workbook.Stored
import Sheetwright.Workbook.Title
import Sheetwright.Main
import Sheetwright.Proofs.Grid.Actions
import Sheetwright.Proofs.Grid.Alike
import Sheetwright.Proofs.Operation
import Sheetwright.Proofs.Workbook.Pasting
import Sheetwright.Proofs.Workbook.Sheets
import Sheetwright.Proofs.Run.Failure
import Sheetwright.Proofs.Run.ReadOnly
import Sheetwright.Proofs.Run.Target
import Sheetwright.Proofs.Grid.Grown
import Sheetwright.Proofs.Run.Abreast
import Sheetwright.Proofs.Run.Apart
import Sheetwright.Proofs.Run.Isolation
import Sheetwright.Proofs.Run.Accounting
import Sheetwright.Proofs.Run.Filing
import Sheetwright.Proofs.Run.Scope
import Sheetwright.Proofs.Validation.Agreement
import Sheetwright.Proofs.Validation.Examined
import Sheetwright.Proofs.Validation.Drivers
import Sheetwright.Proofs.Validation.Tabs
import Sheetwright.Proofs.Record.Written
import Sheetwright.Proofs.Record.Readable
import Sheetwright.Proofs.Record.Cutting
import Sheetwright.Proofs.Collection.Keys
import Sheetwright.Proofs.Formula.Relocation
import Sheetwright.Proofs.Grid.Entering
import Sheetwright.Proofs.Workbook.Copying
import Sheetwright.Proofs.Template.Building
import Sheetwright.Proofs.Template.Prepared
import Sheetwright.Proofs.Template.Placed
import Sheetwright.Proofs.Run.Stacked
import Sheetwright.Proofs.Validation.Counts
import Sheetwright.Proofs.Validation.Order
import Sheetwright.Proofs.Validation.Titles
import Sheetwright.Proofs.Template.Tagged
import Sheetwright.Proofs.Command.Gate
import Sheetwright.Proofs.Text.Utf8
import Sheetwright.Proofs.Reference.Loading
import Sheetwright.Proofs.Command.Consulting
import Sheetwright.Proofs.Record.Assigned
import Sheetwright.Proofs.Code.Items
import Sheetwright.Proofs.Record.Lossless
import Sheetwright.Proofs.Validation.Verbatim
import Sheetwright.Proofs.Validation.Leftmost
import Sheetwright.Proofs.Grid.Cleared
import Sheetwright.Proofs.Grid.Consistent
import Sheetwright.Proofs.Run.Fresh
import Sheetwright.Proofs.Formula.Growth
import Sheetwright.Proofs.Workbook.Imprinting
import Sheetwright.Proofs.Workbook.Across
import Sheetwright.Proofs.Run.Block
import Sheetwright.Proofs.Run.Looks
import Sheetwright.Proofs.Run.Sealed
import Sheetwright.Proofs.Run.Intact
import Sheetwright.Proofs.Formula.Vanishing
import Sheetwright.Proofs.Workbook.Landing
import Sheetwright.Proofs.Run.Spacing
import Sheetwright.Proofs.Validation.Dispatched
import Sheetwright.Proofs.Reference.Rewritten
import Sheetwright.Proofs.Code.Given

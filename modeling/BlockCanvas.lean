import BlockCanvas.Canvas.Grid
import BlockCanvas.Main
import BlockCanvas.Proofs.Document.Binary
import BlockCanvas.Proofs.Program.Action
import BlockCanvas.Proofs.Program.Statement
import BlockCanvas.Proofs.Text.Line
import BlockCanvas.Proofs.Program.Run
import BlockCanvas.Proofs.Program.Invariant
import BlockCanvas.Proofs.Program.ListLimits
import BlockCanvas.Proofs.Number.Decimal
import BlockCanvas.Proofs.Number.Numeral
import BlockCanvas.Proofs.Document.Json.Number
import BlockCanvas.Proofs.Document.Json.Token
import BlockCanvas.Proofs.Document.Json.Tree
import BlockCanvas.Proofs.Document.Json.Reader
import BlockCanvas.Proofs.Document.Blocks
import BlockCanvas.Proofs.Text.Search
import BlockCanvas.Proofs.Number.Literal
import BlockCanvas.Proofs.Program.RaisedLimits
import BlockCanvas.Proofs.Program.Chain
import BlockCanvas.Proofs.Program.QuotedText
import BlockCanvas.Proofs.Document.Places
import BlockCanvas.Proofs.CommandLine.Convert
import BlockCanvas.Proofs.Program.Footprint
import BlockCanvas.Proofs.Program.Answer
import BlockCanvas.Canvas.Step
import BlockCanvas.Proofs.Canvas.Session
import BlockCanvas.Proofs.CommandLine.Exec
import BlockCanvas.Proofs.Block.Rows
import BlockCanvas.Proofs.Block.Fragments
import BlockCanvas.Proofs.Document.Framing
import BlockCanvas.Proofs.Document.Resaving
import BlockCanvas.Canvas.Edit
import BlockCanvas.Proofs.Canvas.Edits
import BlockCanvas.Proofs.Document.Json.Grammar
import BlockCanvas.Proofs.Document.Json.Rearranged
import BlockCanvas.Proofs.Document.Rearranged
import BlockCanvas.Proofs.Document.Json.ShortNumber
import BlockCanvas.Proofs.Document.KeptPlaces
import BlockCanvas.Proofs.Canvas.Locality
import BlockCanvas.Proofs.Block.Entries
import BlockCanvas.Proofs.Block.Heights
import BlockCanvas.Proofs.Block.Arrangement
import BlockCanvas.Proofs.Canvas.Preview
import BlockCanvas.Proofs.Text.Replace
import BlockCanvas.Proofs.Block.Placeholders
import BlockCanvas.Proofs.Block.Filling
import BlockCanvas.Proofs.Block.InputOrder
import BlockCanvas.Proofs.Program.Depth
import BlockCanvas.Proofs.Program.Handlers
import BlockCanvas.Proofs.Program.Words
import BlockCanvas.Proofs.Program.LastBinding
import BlockCanvas.Proofs.Number.Whole
import BlockCanvas.Proofs.Program.Loop
import BlockCanvas.Proofs.Block.ForLoop
import BlockCanvas.Proofs.Program.Appends
import BlockCanvas.Proofs.Number.Grammar
import BlockCanvas.Proofs.Number.Display
import BlockCanvas.Proofs.Program.Coercion
import BlockCanvas.Proofs.Program.Numbers
import BlockCanvas.Proofs.Program.ListLiteral
import BlockCanvas.Proofs.Program.Comparison
import BlockCanvas.Proofs.Text.Places
import BlockCanvas.Proofs.Program.LoopHeader
import BlockCanvas.Proofs.Text.Slices
import BlockCanvas.Proofs.Program.CheckedShapes
import BlockCanvas.Proofs.Program.Checked
import BlockCanvas.Proofs.Program.Layout
import BlockCanvas.Proofs.Program.Outcome
import BlockCanvas.Proofs.Program.OutputLines
import BlockCanvas.Proofs.Text.LowerCase
import BlockCanvas.Proofs.Block.Search
import BlockCanvas.Proofs.Number.Width
import BlockCanvas.Proofs.Program.TextGrowth

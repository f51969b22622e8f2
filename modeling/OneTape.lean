import OneTape.Main
import OneTape.Form.Program
import OneTape.Machine.Operation
import OneTape.Statement.Pair
import OneTape.Proofs.Machine.Coherence
import OneTape.Proofs.Machine.Steps
import OneTape.Proofs.Machine.Textbook
import OneTape.Proofs.Machine.Zipper
import OneTape.Proofs.UnaryDoubler
import OneTape.Proofs.BitFlipper
import OneTape.Proofs.Statement.Grammar
import OneTape.Proofs.Statement.Items
import OneTape.Proofs.Statement.Complaint
import OneTape.Proofs.Statement.Tree
import OneTape.Proofs.Rule
import OneTape.Proofs.Program.Text
import OneTape.Proofs.Program.Rows
import OneTape.Proofs.Machine.Failure
import OneTape.Proofs.Machine.Preview
import OneTape.Proofs.Machine.Rebuild
import OneTape.Proofs.Machine.Padding
import OneTape.Proofs.Machine.Phase
import OneTape.Proofs.Machine.Shape
import OneTape.Proofs.Machine.Course
import OneTape.Proofs.Machine.Lock
import OneTape.Proofs.Command.Watch
import OneTape.Proofs.Json.Reader
import OneTape.Proofs.Json.String
import OneTape.Proofs.Json.Number
import OneTape.Proofs.Json.Codec
import OneTape.Proofs.Json.Record
import OneTape.Proofs.Json.Extent
import OneTape.Proofs.Json.Duplicate
import OneTape.Proofs.Json.Writer
import OneTape.Proofs.Form
import OneTape.Proofs.Layout
import OneTape.Proofs.Snapshot
import OneTape.Proofs.Program.Decision
import OneTape.Proofs.Program.Edit
import OneTape.Proofs.Machine.Agreement
import OneTape.Proofs.Machine.Confined
import OneTape.Proofs.Machine.Recurrence
import OneTape.Proofs.Machine.Renaming
import OneTape.Proofs.Command.Loading
import OneTape.Proofs.Machine.Build
import OneTape.Proofs.Command.Snapshots
import OneTape.Proofs.Tape
import OneTape.Proofs.Config
import OneTape.Proofs.Preset

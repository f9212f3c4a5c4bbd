import SchedReplay.Ident
import SchedReplay.Json.Reader
import SchedReplay.Json.Writer
import SchedReplay.Text.Blank
import SchedReplay.Text.Lines
import SchedReplay.Text.Utf8
import SchedReplay.Wire.Decoding
import SchedReplay.Wire.Encoding
import SchedReplay.Decision.Effect
import SchedReplay.Event.Validation
import SchedReplay.Engine.Call
import SchedReplay.Recording.Items
import SchedReplay.Recording.Replay
import SchedReplay.CommandLine.FileTree
import SchedReplay.Main
import SchedReplay.Proofs.Ownership
import SchedReplay.Proofs.Latch
import SchedReplay.Proofs.Published
import SchedReplay.Proofs.Conservation
import SchedReplay.Proofs.Status
import SchedReplay.Proofs.Commitments
import SchedReplay.Proofs.Reading
import SchedReplay.Proofs.Applicability
import SchedReplay.Proofs.Inventory
import SchedReplay.Proofs.Outcome
import SchedReplay.Proofs.Whereabouts
import SchedReplay.Proofs.Acceptance
import SchedReplay.Proofs.Holding
import SchedReplay.Proofs.Movement
import SchedReplay.Proofs.Reordering
import SchedReplay.Proofs.Outstanding
import SchedReplay.Proofs.Processing
import SchedReplay.Proofs.Settlement
import SchedReplay.Proofs.Fronting
import SchedReplay.Proofs.Rereading
import SchedReplay.Proofs.Shapes
import SchedReplay.Proofs.Roundtrip
import SchedReplay.Proofs.Announcement
import SchedReplay.Proofs.Numbering
import SchedReplay.Proofs.Delivery
import SchedReplay.Proofs.Accounting
import SchedReplay.Proofs.Compatibility
import SchedReplay.Proofs.Buffering
import SchedReplay.Proofs.Retagging
import SchedReplay.Proofs.Lineup
import SchedReplay.Proofs.Idleness
import SchedReplay.Proofs.Independence
import SchedReplay.Proofs.Finality
import SchedReplay.Proofs.Refusal
import SchedReplay.Proofs.Retention
import SchedReplay.Proofs.Repetition
import SchedReplay.Proofs.Redelivery
import SchedReplay.Proofs.Tenure
import SchedReplay.Proofs.Footprint
import SchedReplay.Proofs.Position
import SchedReplay.Proofs.Conflict
import SchedReplay.Proofs.Requirements
import SchedReplay.Proofs.Legibility
import SchedReplay.Proofs.Renumbering
import SchedReplay.Proofs.Annotation
import SchedReplay.Proofs.Printout
import SchedReplay.Proofs.Highlighting
import SchedReplay.Proofs.Neutrality
import SchedReplay.Proofs.Unambiguity
import SchedReplay.Proofs.Faithfulness
import SchedReplay.Proofs.Visibility

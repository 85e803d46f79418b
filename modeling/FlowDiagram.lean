import FlowDiagram.Main
import FlowDiagram.Proofs.Completion
import FlowDiagram.Proofs.Assembly
import FlowDiagram.Proofs.Wiring
import FlowDiagram.Proofs.Faults
import FlowDiagram.Proofs.Recompiling
import FlowDiagram.Proofs.ReadingOrder
import FlowDiagram.Proofs.DeclarationOrder
import FlowDiagram.Proofs.EntryPoint
import FlowDiagram.Proofs.Notices
import FlowDiagram.Proofs.Neatness
import FlowDiagram.Proofs.Trimming
import FlowDiagram.Proofs.ChartText
import FlowDiagram.Proofs.DrawnLines
import FlowDiagram.Proofs.Outlines
import FlowDiagram.Proofs.Separators
import FlowDiagram.Proofs.Markup.Written
import FlowDiagram.Proofs.Markup.Scanning
import FlowDiagram.Proofs.Markup.Streaming
import FlowDiagram.Proofs.Markup.Fields
import FlowDiagram.Proofs.Markup.Records
import FlowDiagram.Proofs.Decoding
import FlowDiagram.Proofs.Markup.Nesting
import FlowDiagram.Proofs.Markup.Tracking
import FlowDiagram.Proofs.Soundness
import FlowDiagram.Proofs.Metadata
import FlowDiagram.Proofs.Identifiers
import FlowDiagram.Proofs.Arrows
import FlowDiagram.Proofs.JsonText
import FlowDiagram.Proofs.Dumping
import FlowDiagram.Proofs.Collisions
import FlowDiagram.Proofs.Command.Places
import FlowDiagram.Proofs.Command.Delivery
import FlowDiagram.Proofs.Command.Runs
import FlowDiagram.Proofs.Tables
import FlowDiagram.Proofs.Counts
import FlowDiagram.Proofs.Projections

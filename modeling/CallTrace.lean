import CallTrace.Program.Basic
import CallTrace.Proofs.Batch.Independence
import CallTrace.Proofs.Environment.Extension
import CallTrace.Proofs.Hex.Word
import CallTrace.Proofs.Process
import CallTrace.Proofs.Program.Shape
import CallTrace.Proofs.Program.Sharing
import CallTrace.Proofs.Reconstruction.Containment
import CallTrace.Proofs.Reconstruction.Depth
import CallTrace.Proofs.Reconstruction.Flattening
import CallTrace.Proofs.Reconstruction.Noise
import CallTrace.Proofs.Reconstruction.Payload
import CallTrace.Proofs.Reconstruction.Progress
import CallTrace.Proofs.Reconstruction.View
import CallTrace.Proofs.Record.Session
import CallTrace.Proofs.Settings
import CallTrace.Proofs.StateTest.Id
import CallTrace.Proofs.Tool.Reply
import CallTrace.Proofs.Trace.Outline
import CallTrace.Proofs.Transaction.Template
import CallTrace.Proofs.Transaction.Width
import CallTrace.Proofs.WorldState.Canonical
import CallTrace.Shell.Basic

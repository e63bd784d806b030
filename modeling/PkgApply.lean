import PkgApply.Library.Process
import PkgApply.Library.Discipline
import PkgApply.Library.Interleaving
import PkgApply.Library.Ordering
import PkgApply.Library.Turns
import PkgApply.Library.Encoding
import PkgApply.Library.Codec
import PkgApply.Library.Format
import PkgApply.Library.Stream
import PkgApply.Library.Keyed
import PkgApply.Vocabulary
import PkgApply.Observation
import PkgApply.Knowledge
import PkgApply.Plan
import PkgApply.Dependencies
import PkgApply.Schedule
import PkgApply.Closure
import PkgApply.Receipt
import PkgApply.Mechanism
import PkgApply.Journal.Record
import PkgApply.Journal.Transport
import PkgApply.Transport.Digest
import PkgApply.Transport.Value
import PkgApply.Transport.Binding
import PkgApply.Transport.Codec
import PkgApply.Transport.Limits
import PkgApply.Transport.RoundTrip
import PkgApply.Journal.History
import PkgApply.Journal.Soundness
import PkgApply.Journal.Store
import PkgApply.Journal.Terminality
import PkgApply.Journal.Batch
import PkgApply.Engine.Mechanisms
import PkgApply.Engine.Preparation
import PkgApply.Engine.Rejected
import PkgApply.Engine.Active
import PkgApply.Engine.Completion
import PkgApply.Engine.Matching
import PkgApply.Engine.Recovery
import PkgApply.Engine.Journaled
import PkgApply.Engine.Inputs
import PkgApply.Engine.Admitted
import PkgApply.Engine.Ledger
import PkgApply.Engine.Graph
import PkgApply.Engine.Rules
import PkgApply.Engine.Discipline
import PkgApply.Restart.Assessment
import PkgApply.Restart.View
import PkgApply.Restart.Forward
import PkgApply.Restart.Backward
import PkgApply.Restart.Completion
import PkgApply.Restart.Replay
import PkgApply.Restart.Discipline
import PkgApply.Engine.Runs
import PkgApply.Engine.Phases
import PkgApply.Engine.Readiness
import PkgApply.Restart.Phases
import PkgApply.Restart.Resumability
import PkgApply.Restart.Foreign
import PkgApply.Restart.Readiness
import PkgApply.Engine.World
import PkgApply.Engine.Destruction
import PkgApply.Engine.Rehydration
import PkgApply.Engine.Interleaving
import PkgApply.Restart.Retained
import PkgApply.Restart.Exposure
import PkgApply.Restart.Rules
import PkgApply.Restart.Answers
import PkgApply.Restart.Fresh
import PkgApply.Restart.Acceptance
import PkgApply.Restart.Failure
import PkgApply.Restart.Scopes
import PkgApply.Restart.Reported
import PkgApply.Restart.Conclusion
import PkgApply.Restart.Sealing
import PkgApply.Restart.Receipts
import PkgApply.Engine.Order
import PkgApply.Engine.Advance
import PkgApply.Restart.Advance
import PkgApply.Restart.Shape
import PkgApply.Transport.Streams
import PkgApply.Transport.Formats
import PkgApply.Transport.TransportFormats
import PkgApply.Transport.Canonical
import PkgApply.Transport.Objects
import PkgApply.Transport.Snapshot
import PkgApply.Transport.Records
import PkgApply.Transport.JournalCodec
import PkgApply.Transport.JournalRoundTrip
import PkgApply.Transport.ObjectCodec
import PkgApply.Transport.Evidence
import PkgApply.Transport.Consequences
import PkgApply.Transport.Envelope
import PkgApply.Transport.EvidenceFormat
import PkgApply.Transport.ConsequenceCodec
import PkgApply.Transport.EvidenceCodec
import PkgApply.Transport.ReceiptFormat
import PkgApply.Transport.ReceiptCodec
import PkgApply.Transport.ReplayFormat
import PkgApply.Transport.ReplayCodec
import PkgApply.Transport.ReplayRoundTrip
import PkgApply.Transport.Recorded
import PkgApply.Restart.Dependence
import PkgApply.Transport.Separation
import PkgApply.Transport.Preimages
import PkgApply.Transport.ReceiptBinding
import PkgApply.Transport.Validation
import PkgApply.Transport.Assessment
import PkgApply.Admission.Context
import PkgApply.Admission.Request
import PkgApply.Admission.Binding
import PkgApply.Admission.Gate
import PkgApply.Admission.Admit
import PkgApply.Admission.Resume

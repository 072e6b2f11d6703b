import CmppProtocol.Sequence.Registry
import CmppProtocol.Sequence.Invariant
import CmppProtocol.Sequence.Preservation
import CmppProtocol.Sequence.Operations
import CmppProtocol.Library.Machine
import CmppProtocol.Sequence.Runs
import CmppProtocol.Library.Cursor
import CmppProtocol.Library.Utf8
import CmppProtocol.Error
import CmppProtocol.Wire.Octets
import CmppProtocol.Wire.Pdu
import CmppProtocol.Wire.Reading
import CmppProtocol.Wire.Bodies
import CmppProtocol.Wire.Framing
import CmppProtocol.Wire.RoundTrip
import CmppProtocol.Wire.Stream
import CmppProtocol.Encoding.Content
import CmppProtocol.Encoding.Split
import CmppProtocol.Encoding.Segments
import CmppProtocol.Library.Bitmap
import CmppProtocol.Library.MinHeap
import CmppProtocol.Library.SortDedup
import CmppProtocol.Udh.Pool
import CmppProtocol.Library.Focus
import CmppProtocol.Udh.Bucket
import CmppProtocol.Udh.Runs
import CmppProtocol.Connection.Attempts
import CmppProtocol.Submit.Template
import CmppProtocol.Connection.State
import CmppProtocol.Connection.Step
import CmppProtocol.Connection.Transitions
import CmppProtocol.Connection.Ledger
import CmppProtocol.Connection.Entries
import CmppProtocol.Connection.Conservation
import CmppProtocol.Connection.Balance
import CmppProtocol.Connection.Window
import CmppProtocol.Connection.Lifecycle
import CmppProtocol.Connection.Lives
import CmppProtocol.Connection.Wiring
import CmppProtocol.Connection.Simulation
import CmppProtocol.Connection.Refinement
import CmppProtocol.Connection.Reached
import CmppProtocol.Connection.Outcome
import CmppProtocol.Connection.Retransmission
import CmppProtocol.Connection.Answers
import CmppProtocol.Connection.Owners
import CmppProtocol.Connection.Draining
import CmppProtocol.Connection.Covered
import CmppProtocol.Connection.Progress
import CmppProtocol.Connection.Scanning
import CmppProtocol.Connection.Farewell
import CmppProtocol.Connection.Conserved
import CmppProtocol.Connection.Consumed
import CmppProtocol.Connection.Reported
import CmppProtocol.Connection.Claiming
import CmppProtocol.Connection.Returned
import CmppProtocol.Encoding.Minimal
import CmppProtocol.Encoding.Inbound
import CmppProtocol.Submit.Reuse
import CmppProtocol.Udh.Availability
import CmppProtocol.Wire.Accepted
import CmppProtocol.Connection.Flushing
import CmppProtocol.Connection.Cancelling
import CmppProtocol.Connection.Beats
import CmppProtocol.Connection.Heartbeats
import CmppProtocol.Connection.Feeding
import CmppProtocol.Connection.Schedule
import CmppProtocol.Connection.Dispatch
import CmppProtocol.Connection.Isolation
import CmppProtocol.Events.Stream
import CmppProtocol.Events.Dispatcher
import CmppProtocol.Events.Spool
import CmppProtocol.Events.Capacity
import CmppProtocol.Events.Loss
import CmppProtocol.Reader.Batching
import CmppProtocol.Teardown.Machine
import CmppProtocol.Events.Admission
import CmppProtocol.Teardown.Once
import CmppProtocol.Events.Shown
import CmppProtocol.Teardown.Graceful
import CmppProtocol.Teardown.Ending
import CmppProtocol.Events.Deferred
import CmppProtocol.Delivery.Machine
import CmppProtocol.Delivery.Acknowledged
import CmppProtocol.Connection.Arrival
import CmppProtocol.Login.Authentication
import CmppProtocol.Udh.Locking
import CmppProtocol.Udh.Late
import CmppProtocol.Events.Counters
import CmppProtocol.Teardown.Returning
import CmppProtocol.Events.Fitting
import CmppProtocol.Wire.Report
import CmppProtocol.Connection.Waiting

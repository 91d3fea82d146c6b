import Stomp.Bytes
import Stomp.Text.Utf8
import Stomp.Text.CharClass
import Stomp.Text.Blank
import Stomp.Text.Numeral
import Stomp.Text.Quoted
import Stomp.Duration
import Stomp.Frame
import Stomp.Version
import Stomp.Heartbeat
import Stomp.Fault
import Stomp.Lifecycle
import Stomp.Url
import Stomp.Config
import Stomp.Wire.Escape
import Stomp.Wire.RawFrame
import Stomp.Wire.Item
import Stomp.Wire.Codec
import Stomp.Session.Basic
import Stomp.Session.Task
import Stomp.Session.Handle
import Stomp.Socket.Transport
import Stomp.Socket.Client
import Stomp.Simulation.Broker
import Stomp.Simulation.Rig
import Stomp.Proofs.Outcome
import Stomp.Proofs.Text.Utf8
import Stomp.Proofs.Text.Numeral
import Stomp.Proofs.Text.Decimal
import Stomp.Proofs.Text.Visible
import Stomp.Proofs.Config
import Stomp.Proofs.Wire.Escape
import Stomp.Proofs.Wire.Lines
import Stomp.Proofs.Wire.Positions
import Stomp.Proofs.Wire.Bounds
import Stomp.Proofs.Wire.Grammar
import Stomp.Proofs.Wire.WireSafe
import Stomp.Proofs.Wire.Headers
import Stomp.Proofs.Wire.Written
import Stomp.Proofs.Wire.RoundTrip
import Stomp.Proofs.Wire.Stability
import Stomp.Proofs.Wire.Prefix
import Stomp.Proofs.Wire.Chunking
import Stomp.Proofs.Wire.Losses
import Stomp.Proofs.Wire.Accounting
import Stomp.Proofs.Wire.Extension
import Stomp.Proofs.Wire.Completion
import Stomp.Proofs.Wire.Splitting
import Stomp.Proofs.Wire.Reencoding
import Stomp.Proofs.Wire.Greeting
import Stomp.Proofs.Session.Moves
import Stomp.Proofs.Session.Runs
import Stomp.Proofs.Session.Activations
import Stomp.Proofs.Session.Observers
import Stomp.Proofs.Session.Phases
import Stomp.Proofs.Session.Outbound
import Stomp.Proofs.Session.Discipline
import Stomp.Proofs.Session.Reports
import Stomp.Proofs.Session.Owing
import Stomp.Proofs.Session.Pairing
import Stomp.Proofs.Session.Queue
import Stomp.Proofs.Session.Calls
import Stomp.Proofs.Session.Exchanges
import Stomp.Proofs.Session.Usage
import Stomp.Proofs.Session.Timing
import Stomp.Proofs.Session.Stopping
import Stomp.Proofs.Session.Ownership
import Stomp.Proofs.Session.Incidents
import Stomp.Proofs.Session.Farewell
import Stomp.Proofs.Session.Retry
import Stomp.Proofs.Session.Delivery
import Stomp.Proofs.Session.Hearing
import Stomp.Proofs.Session.Containment
import Stomp.Proofs.Session.Versions
import Stomp.Proofs.Heartbeat
import Stomp.Proofs.Session.Handshake
import Stomp.Proofs.Session.Handout
import Stomp.Proofs.Socket.Reading
import Stomp.Proofs.Socket.Connections
import Stomp.Proofs.Socket.Silence
import Stomp.Proofs.Socket.Writing
import Stomp.Proofs.Simulation

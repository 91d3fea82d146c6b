import Stomp.Frame

/-!
# Faults

What can go wrong with a session, from a rejected configuration to a write
without a connection.
-/

namespace Stomp

inductive Fault where
  | invalidConfig (reason : String)
  /-- The broker did not complete the handshake. -/
  | handshakeFailure (reason : String)
  /-- The socket failed, or the broker fell silent. -/
  | transport (reason : String)
  | protocol (error : ServerError)
  | io (reason : String)
  | notConnected
  deriving DecidableEq, Repr

def Fault.message : Fault → String
  | .invalidConfig reason => s!"invalid config: {reason}"
  | .handshakeFailure reason => s!"handshake failed: {reason}"
  | .transport reason => s!"transport error: {reason}"
  | .protocol error => s!"protocol error: {error.text}"
  | .io reason => s!"io error: {reason}"
  | .notConnected => "session is not active"

end Stomp

import Stomp.Fault
import Stomp.Heartbeat
import Stomp.Version

/-!
# Lifecycle reports

What a session tells its owner: that it is connected and on which terms, why a
connection ended, and what went wrong.
-/

namespace Stomp

/-! ## Connected -/

structure ConnectedInfo where
  version : Version
  session : Option String
  server : Option String
  /-- How often the client has to send something. -/
  outgoing : Option Duration
  /-- How often the broker has to send something. -/
  incoming : Option Duration
  frame : Frame
  deriving DecidableEq, Repr

namespace ConnectedInfo

/-- The version that a CONNECTED frame selects: the oldest if it names none. -/
def selectedVersion? (frame : Frame) : Option Version :=
  match frame.header? "version" with
  | none => some .v10
  | some text => Version.read? text

def ofFrame? (frame : Frame) (offer : String) : Option ConnectedInfo :=
  (selectedVersion? frame).map fun version =>
    let ours := Heartbeat.readHeader offer
    let theirs := Heartbeat.readHeader ((frame.header? "heart-beat").getD "0,0")
    let agreed := Heartbeat.negotiate ours.1 ours.2 theirs.1 theirs.2
    { version
      session := frame.header? "session"
      server := frame.header? "server"
      outgoing := agreed.outgoing
      incoming := agreed.incoming
      frame }

end ConnectedInfo

/-! ## Disconnected -/

structure CloseInfo where
  code : Option UInt16
  reason : String
  isLocal : Bool
  deriving DecidableEq, Repr

namespace CloseInfo

def remote (code : Option UInt16) (reason : String) : CloseInfo :=
  ⟨code, if reason.isEmpty then "unknown" else reason, false⟩

def failed (reason : String) : CloseInfo := ⟨none, reason, false⟩

def deactivated : CloseInfo := ⟨some 1000, "client deactivated", true⟩

def text (close : CloseInfo) : String :=
  match close.code with
  | some code => s!"code {code.toNat}: {close.reason}"
  | none => close.reason

end CloseInfo

/-! ## Reports -/

inductive Report where
  | connected (info : ConnectedInfo)
  | disconnected (close : CloseInfo)
  | failed (fault : Fault)
  deriving DecidableEq, Repr

end Stomp

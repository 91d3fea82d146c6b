import Stomp.Config
import Stomp.Wire.Item

/-!
# Parts of a session

Phases, the transport's vocabulary, the owner's handlers, and the log in which a
session records what it does and when.
-/

namespace Stomp

inductive Phase where
  | idle
  | connecting
  | connected
  | disconnecting
  deriving DecidableEq, Repr

namespace Phase

def name : Phase → String
  | .idle => "idle"
  | .connecting => "connecting"
  | .connected => "connected"
  | .disconnecting => "disconnecting"

def title : Phase → String
  | .idle => "Idle"
  | .connecting => "Connecting"
  | .connected => "Connected"
  | .disconnecting => "Disconnecting"

end Phase

/-! ## The transport -/

inductive Call where
  | connect (url : Url)
  | send (item : Wire.Item)
  | close
  deriving DecidableEq, Repr

inductive Event where
  | item (item : Wire.Item)
  | failed (fault : Fault)
  | closed (close : CloseInfo)
  deriving DecidableEq, Repr

inductive Panic where
  | text (message : String)
  | other
  deriving DecidableEq, Repr

def Panic.message : Panic → String
  | .text message => message
  | .other => "unknown panic"

inductive Outcome where
  | opened (result : Except Fault Unit)
  | sent (result : Except Fault Unit)
  | closed
  | event (event : Event)
  | panicked (panic : Panic)

/-! ## Handlers -/

inductive Reaction where
  | returns
  | panics
  deriving DecidableEq, Repr

/-- A handler may react differently each time; `calls` counts the reports it was given. -/
structure Handler where
  react : Nat → Reaction
  calls : Nat := 0

def Handler.steady (reaction : Reaction) : Handler := { react := fun _ => reaction }

/-- The owner's handlers; reports for which there is none are not heard. -/
structure Handlers where
  onConnect : Option Handler := none
  onDisconnect : Option Handler := none
  onError : Option Handler := none

namespace Handlers

def hearWith (handler : Option Handler) : Option Handler × Option Reaction :=
  match handler with
  | none => (none, none)
  | some handler =>
      (some { handler with calls := handler.calls + 1 }, some (handler.react handler.calls))

def hear (handlers : Handlers) : Report → Handlers × Option Reaction
  | .connected _ =>
      let (onConnect, heard) := hearWith handlers.onConnect
      ({ handlers with onConnect }, heard)
  | .disconnected _ =>
      let (onDisconnect, heard) := hearWith handlers.onDisconnect
      ({ handlers with onDisconnect }, heard)
  | .failed _ =>
      let (onError, heard) := hearWith handlers.onError
      ({ handlers with onError }, heard)

def display (handlers : Handlers) : String :=
  "LifecycleCallbacks \x7b on_connect: " ++ toString handlers.onConnect.isSome
    ++ ", on_disconnect: " ++ toString handlers.onDisconnect.isSome
    ++ ", on_error: " ++ toString handlers.onError.isSome ++ " \x7d"

end Handlers

/-! ## The log -/

inductive SendAnswer where
  | queued
  | full
  | refused
  deriving DecidableEq, Repr

inductive NextAnswer where
  | frame (frame : Frame)
  | pending
  | ended
  deriving DecidableEq, Repr

inductive Effect where
  /-- The phase was set, perhaps to what it was. -/
  | enter (phase : Phase)
  | call (call : Call)
  /-- Something was reported, and heard if there is a handler for it. -/
  | report (report : Report) (heard : Option Reaction)
  | answeredSend (frame : Frame) (answer : SendAnswer)
  | answeredNext (answer : NextAnswer)
  deriving DecidableEq, Repr

structure Entry where
  time : Instant
  phase : Phase
  effect : Effect
  deriving DecidableEq, Repr

end Stomp

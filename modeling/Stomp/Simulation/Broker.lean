import Stomp.Session.Task
import Stomp.Wire.Codec

/-!
# A scripted broker

A broker and the transport that leads to it, as one value that answers calls and
delivers events by a script.  Bytes that it sends pass through the decoder, so
frames may be split over events or share one.
-/

namespace Stomp.Simulation

inductive BrokerEvent where
  | raw (message : Bytes)
  | failed (fault : Fault)
  | closed (code : Option UInt16) (reason : String)
  | panicked (panic : Panic)
  deriving DecidableEq, Repr

inductive Opening where
  | opens
  | hangs
  | fails (fault : Fault)
  | panics (panic : Panic)
  deriving DecidableEq, Repr

inductive Mishap where
  | fails (fault : Fault)
  | panics (panic : Panic)
  deriving DecidableEq, Repr

structure Manner where
  opening : Opening := .opens
  writing : List (String × Mishap) := []
  closing : Option Panic := none
  /-- Events that follow a CONNECT. -/
  replies : List BrokerEvent := []
  deriving DecidableEq, Repr

structure Broker where
  manner : Manner := {}
  codec : Wire.Codec
  isOpen : Bool := false
  buffer : Bytes := []
  items : List Wire.Item := []
  events : List BrokerEvent := []

namespace Broker

/-! ## Answering calls -/

def open? (broker : Broker) : Broker × Option Outcome :=
  let fresh := { broker with events := [], buffer := [], items := [] }
  match broker.manner.opening with
  | .opens => ({ fresh with isOpen := true }, some (.opened (.ok ())))
  | .hangs => (fresh, none)
  | .fails fault => (fresh, some (.opened (.error fault)))
  | .panics panic => (fresh, some (.panicked panic))

def kind : Wire.Item → String
  | .heartbeat => "heartbeat"
  | .frame sent => sent.command

def write (broker : Broker) (item : Wire.Item) : Broker × Outcome :=
  if !broker.isOpen then (broker, .sent (.error (.transport "socket closed")))
  else
    match broker.manner.writing.lookup (kind item) with
    | some (.fails fault) => (broker, .sent (.error fault))
    | some (.panics panic) => (broker, .panicked panic)
    | none =>
        let replies := if kind item == "CONNECT" then broker.manner.replies else []
        ({ broker with events := broker.events ++ replies }, .sent (.ok ()))

def shut (broker : Broker) : Broker × Outcome :=
  ({ broker with isOpen := false },
    match broker.manner.closing with
    | some panic => .panicked panic
    | none => .closed)

def answer (broker : Broker) : Call → Broker × Option Outcome
  | .connect _ => broker.open?
  | .send item => (broker.write item).map id some
  | .close => broker.shut.map id some

/-! ## Delivering events -/

def deliverFrom (broker : Broker) : List BrokerEvent → Broker × Option Outcome
  | [] => ({ broker with events := [] }, none)
  | .raw message :: rest =>
      let intake := broker.codec.decodeMessage broker.buffer message
      let broker := { broker with buffer := intake.buffer }
      match intake.result with
      | .ok [] => broker.deliverFrom rest
      | .ok (item :: items) =>
          ({ broker with items, events := rest }, some (.event (.item item)))
      | .error fault =>
          ({ broker with isOpen := false, events := rest },
            some (.event (.failed (.io fault.message))))
  | .failed fault :: rest =>
      ({ broker with isOpen := false, events := rest }, some (.event (.failed fault)))
  | .closed code reason :: rest =>
      ({ broker with isOpen := false, events := rest },
        some (.event (.closed (CloseInfo.remote code reason))))
  | .panicked panic :: rest => ({ broker with events := rest }, some (.panicked panic))

def deliver (broker : Broker) : Broker × Option Outcome :=
  match broker.items with
  | item :: items => ({ broker with items }, some (.event (.item item)))
  | [] => if broker.isOpen then broker.deliverFrom broker.events else (broker, none)

/-! ## Size -/

def eventSize : BrokerEvent → Nat
  | .raw message => message.length + 1
  | _ => 1

def backlog (broker : Broker) : Nat :=
  (broker.events ++ broker.manner.replies).foldr (eventSize · + ·) 0
    + broker.items.length + broker.buffer.length

end Broker

end Stomp.Simulation

import Stomp.Session.Basic
import Stomp.Wire.Codec

/-!
# The WebSocket transport

Items travel as WebSocket messages: one message for each item written, and any
packing of items into the messages that are read.  The connection itself lies
outside; here is what the transport makes of it.
-/

namespace Stomp.Socket

inductive Message where
  | text (text : String)
  | binary (payload : Bytes)
  | ping (payload : Bytes)
  | pong (payload : Bytes)
  /-- A close with or without a code and a reason. -/
  | close (details : Option (UInt16 × String))
  deriving DecidableEq, Repr

inductive Received where
  | message (message : Message)
  | failed (reason : String)
  | ended
  deriving DecidableEq, Repr

structure Transport where
  codec : Wire.Codec
  subprotocols : List String
  isOpen : Bool := false
  /-- Bytes of an item that is not complete yet. -/
  buffer : Bytes := []
  pending : List Wire.Item := []
  deriving DecidableEq, Repr

namespace Transport

def ofConfig (config : Config) : Transport where
  codec := ⟨config.completesFrames⟩
  subprotocols := config.subprotocols

/-! ## Opening and closing -/

def reset (transport : Transport) : Transport :=
  { transport with isOpen := false, buffer := [], pending := [] }

def connect (transport : Transport) (opened : Except String Unit) :
    Transport × Except Fault Unit :=
  match opened with
  | .ok _ => ({ transport.reset with isOpen := true }, .ok ())
  | .error reason => (transport.reset, .error (.transport reason))

def close (transport : Transport) : Transport := transport.reset

/-! ## Writing -/

/-- The message of an item: text if its bytes are text. -/
def messageOf (item : Wire.Item) : Message :=
  match Utf8.decode item.encode with
  | .ok text => .text text
  | .error _ => .binary item.encode

def send (transport : Transport) (item : Wire.Item) : Except Fault Message :=
  if transport.isOpen then .ok (messageOf item) else .error .notConnected

/-! ## Reading -/

/-- Decode a payload; one that cannot be decoded also costs the bytes kept so far. -/
def feed (transport : Transport) (payload : Bytes) : Transport × Option Fault :=
  let intake := transport.codec.decodeMessage transport.buffer payload
  match intake.result with
  | .ok items =>
      ({ transport with buffer := intake.buffer, pending := transport.pending ++ items }, none)
  | .error fault => ({ transport with buffer := [] }, some (.io fault.message))

inductive Content where
  | payload (payload : Bytes)
  | close (close : CloseInfo)
  | control

def content : Message → Content
  | .text text => .payload (Utf8.encode text)
  | .binary payload => .payload payload
  | .close none => .close (CloseInfo.remote none "")
  | .close (some (code, reason)) => .close (CloseInfo.remote (some code) reason)
  | .ping _ => .control
  | .pong _ => .control

structure Reading where
  event : Option Event
  transport : Transport
  rest : List Received

def read (transport : Transport) : List Received → Reading
  | [] => ⟨none, transport, []⟩
  | .failed reason :: rest =>
      ⟨some (.failed (.transport reason)), { transport with isOpen := false }, rest⟩
  | .ended :: rest =>
      ⟨some (.closed (CloseInfo.remote none "")), { transport with isOpen := false }, rest⟩
  | .message message :: rest =>
      match content message with
      | .control => transport.read rest
      | .close close => ⟨some (.closed close), transport, rest⟩
      | .payload payload =>
          match transport.feed payload with
          | (transport, some fault) => ⟨some (.failed fault), transport, rest⟩
          | (transport, none) =>
              match transport.pending with
              | item :: pending => ⟨some (.item item), { transport with pending }, rest⟩
              | [] => transport.read rest

/-- The next event of the transport: a pending item before anything that has to be read. -/
def nextEvent (transport : Transport) (inbound : List Received) : Reading :=
  match transport.pending with
  | item :: pending => ⟨some (.item item), { transport with pending }, inbound⟩
  | [] => if transport.isOpen then transport.read inbound else ⟨none, transport, inbound⟩

end Transport

end Stomp.Socket

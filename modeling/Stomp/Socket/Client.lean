import Stomp.Session.Handle
import Stomp.Socket.Transport

/-!
# A session over a WebSocket connection

The session of `Stomp.Session.Handle` with the transport of `Stomp.Socket.Transport`
under it.  What the broker sends arrives at times of its own and waits until the
transport is asked for its next event, which the task does only while it listens.
How calls of the transport end, and what else happens to the session, is chosen from
outside.
-/

namespace Stomp.Socket

structure Arrival where
  time : Instant
  received : Received
  deriving DecidableEq, Repr

structure Client where
  session : Session
  transport : Transport
  /-- What arrived on the present connection and was read. -/
  heard : List Arrival := []
  /-- What arrived and was not read yet. -/
  unread : List Arrival := []

namespace Client

def ofSession (session : Session) : Client where
  session := session
  transport := Transport.ofConfig session.config

/-! ## The connection -/

def hangUp (client : Client) : Client :=
  { client with transport := client.transport.close, heard := [], unread := [] }

def pickUp (client : Client) : Client :=
  { client with transport := (client.transport.connect (.ok ())).1, heard := [], unread := [] }

def hangsUp (entry : Entry) : Bool :=
  match entry.effect with
  | .call (.connect _) | .call .close => true
  | _ => false

def follow (client : Client) (input : Input) (made : List Entry) : Client :=
  if made.any hangsUp then client.hangUp
  else
    match input with
    | .outcome (.opened (.ok _)) => client.pickUp
    | _ => client

/-! ## Steps -/

inductive Action where
  | arrive (received : Received)
  /-- Ask the transport for its next event. -/
  | poll
  /-- Anything else that can happen to the session. -/
  | other (input : Input)

def advance? (client : Client) (input : Input) : Option (Client × List Entry) := do
  let (session, made) ← client.session.step? input
  return ({ client with session }.follow input made, made)

def reading (client : Client) : Transport.Reading :=
  client.transport.nextEvent (client.unread.map Arrival.received)

/-- The transport was asked; what it read for that is not unread any more. -/
def listen (client : Client) : Client :=
  let count := client.unread.length - client.reading.rest.length
  { client with
    transport := client.reading.transport
    heard := client.heard ++ client.unread.take count
    unread := client.unread.drop count }

def poll? (client : Client) : Option (Client × List Entry) :=
  match client.reading.event with
  | some event => client.listen.advance? (.outcome (.event event))
  | none => some (client.listen, [])

def step? (client : Client) : Action → Option (Client × List Entry)
  | .arrive received =>
      if client.transport.isOpen then
        some ({ client with unread := client.unread ++ [⟨client.session.now, received⟩] }, [])
      else none
  | .poll => if client.session.active.any Task.isListening then client.poll? else none
  | .other (.outcome (.event _)) => none
  | .other input => client.advance? input

def run? (client : Client) : List Action → Option (Client × List Entry)
  | [] => some (client, [])
  | action :: actions => do
      let (client, made) ← client.step? action
      let (client, more) ← client.run? actions
      return (client, made ++ more)

/-! ## Prompt runs -/

def isUpToDate (client : Client) : Bool :=
  client.unread.isEmpty && client.transport.pending.isEmpty

/-- Time passes only while there is nothing to be read. -/
def allows (client : Client) : Action → Bool
  | .other (.elapse _) => client.isUpToDate
  | _ => true

def isPrompt (client : Client) : List Action → Bool
  | [] => true
  | action :: actions =>
      client.allows action && (client.step? action).all fun stepped => stepped.1.isPrompt actions

end Client

end Stomp.Socket

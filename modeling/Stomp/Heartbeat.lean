import Stomp.Duration
import Stomp.Text.Blank
import Stomp.Text.Numeral

/-!
# Heartbeats

What a client offers in its heart-beat header, how such a header is read, and
the intervals that two offers settle on.
-/

namespace Stomp

/--
An offer in milliseconds: how often its owner can send something and how often
it wants to hear something.  Zero turns a direction off.
-/
structure Heartbeat where
  send : UInt32
  receive : UInt32
  deriving DecidableEq, Repr

namespace Heartbeat

def disabled : Heartbeat := ⟨0, 0⟩

def standard : Heartbeat := ⟨4000, 4000⟩

def both (interval : Duration) : Heartbeat :=
  let ms := UInt32.ofNat (min (Duration.millis interval) (Numeral.word32 - 1))
  ⟨ms, ms⟩

def text (offer : Heartbeat) : String :=
  Numeral.write offer.send.toNat ++ "," ++ Numeral.write offer.receive.toNat

/-! ## Reading a header -/

def fieldValue (field : List Char) : Nat :=
  match Numeral.read Numeral.word64 (Text.trim (String.ofList field)) with
  | .ok n => n
  | .error _ => 0

def firstField (header : List Char) : List Char :=
  header.takeWhile (· != ',')

def afterFirstField? (header : List Char) : Option (List Char) :=
  match header.dropWhile (· != ',') with
  | [] => none
  | _ :: rest => some rest

def readHeader (header : String) : Nat × Nat :=
  (fieldValue (firstField header.toList),
    match afterFirstField? header.toList with
    | none => 0
    | some rest => fieldValue (firstField rest))

/-! ## Settling on intervals -/

/-- Both sides must take part in a direction; the slower of them sets the pace. -/
def settle (ours theirs : Nat) : Option Duration :=
  if ours = 0 ∨ theirs = 0 then none else some (Duration.ofMillis (max ours theirs))

structure Agreement where
  outgoing : Option Duration
  incoming : Option Duration
  deriving DecidableEq, Repr

/-- What one side sends is what the other side hears, so the offers cross. -/
def negotiate (clientOut clientIn serverOut serverIn : Nat) : Agreement where
  outgoing := settle clientOut serverIn
  incoming := settle clientIn serverOut

end Heartbeat

end Stomp

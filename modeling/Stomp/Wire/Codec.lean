import Stomp.Wire.Item

/-!
# Decoding messages

A transport delivers bytes in messages.  A message is added to the bytes left
from earlier ones and every complete item is taken.  Where completion is on, what
remains is completed with a NUL if that makes it exactly one frame.
-/

namespace Stomp.Wire

open Bytes

/-- What a buffer held: its items, the bytes left, and the fault that stopped reading, if any. -/
structure Drained where
  items : List Item
  rest : Bytes
  fault : Option DecodeFault
  deriving DecidableEq, Repr

def drain (buffer : Bytes) : Drained :=
  match _hstep : Item.decode buffer with
  | .idle => ⟨[], buffer, none⟩
  | .fault fault rest => ⟨[], rest, some fault⟩
  | .item item rest =>
      let more := drain rest
      { more with items := item :: more.items }
  termination_by buffer.length
  decreasing_by exact Item.decode_length _hstep

theorem drain_idle {buffer : Bytes} (h : Item.decode buffer = .idle) :
    drain buffer = ⟨[], buffer, none⟩ := by
  rw [drain.eq_def]
  split <;> simp_all

theorem drain_fault {buffer rest : Bytes} {fault : DecodeFault}
    (h : Item.decode buffer = .fault fault rest) : drain buffer = ⟨[], rest, some fault⟩ := by
  rw [drain.eq_def]
  split <;> simp_all

theorem drain_item {buffer rest : Bytes} {item : Item}
    (h : Item.decode buffer = .item item rest) :
    drain buffer = { drain rest with items := item :: (drain rest).items } := by
  rw [drain.eq_def]
  split <;> simp_all

structure Codec where
  /-- Whether a frame that lacks only its NUL is completed at the end of a message. -/
  completes : Bool := false
  deriving DecidableEq, Repr

/-- Whether one more NUL makes a buffer exactly one frame. -/
def isCompletable (buffer : Bytes) : Bool :=
  !buffer.all isEol &&
    match RawFrame.read (buffer ++ [nul]) with
    | .complete _ [] => true
    | _ => false

/-- Items of one message, or the fault that cost them, and the bytes left for the next message. -/
structure Intake where
  result : Except DecodeFault (List Item)
  buffer : Bytes

def Drained.intake (drained : Drained) : Intake :=
  match drained.fault with
  | some fault => ⟨.error fault, drained.rest⟩
  | none => ⟨.ok drained.items, drained.rest⟩

namespace Codec

def decodeMessage (codec : Codec) (buffer message : Bytes) : Intake :=
  let drained := drain (buffer ++ message)
  if drained.fault.isNone && codec.completes && isCompletable drained.rest then
    let completed := drain (drained.rest ++ [nul])
    { completed with items := drained.items ++ completed.items }.intake
  else drained.intake

end Codec

/-! ## Streams of messages -/

structure Stream where
  items : List Item
  buffer : Bytes
  fault : Option (Nat × DecodeFault)
  deriving DecidableEq, Repr

namespace Codec

/-- Decode messages one after another up to the first fault; `index` numbers the first. -/
def decodeMessages (codec : Codec) (index : Nat) (buffer : Bytes) : List Bytes → Stream
  | [] => ⟨[], buffer, none⟩
  | message :: messages =>
      let intake := codec.decodeMessage buffer message
      match intake.result with
      | .error fault => ⟨[], intake.buffer, some (index, fault)⟩
      | .ok items =>
          let more := codec.decodeMessages (index + 1) intake.buffer messages
          { more with items := items ++ more.items }

end Codec

end Stomp.Wire

import Stomp.Bytes

/-!
# UTF-8

Writing text as bytes and reading it back, strictly or with replacement.  A
strict reader that fails names the place and the length of the first sequence
that is no character, so both readers rest on one function, `front`, which says
what stands at the front of a byte string.
-/

namespace Stomp.Utf8

def encode (text : String) : Bytes :=
  text.toList.flatMap String.utf8EncodeChar

/-! ## One character -/

def sequenceSize (first : UInt8) : Nat :=
  if first < 0x80 then 1
  else if 0xC2 ≤ first && first ≤ 0xDF then 2
  else if 0xE0 ≤ first && first ≤ 0xEF then 3
  else if 0xF0 ≤ first && first ≤ 0xF4 then 4
  else 0

def isTail (b : UInt8) : Bool := 0x80 ≤ b && b ≤ 0xBF

/--
Second bytes that may follow the first byte of a longer sequence.  Overlong
forms, surrogates and values above U+10FFFF are shut out here.
-/
def admitsSecond (first second : UInt8) : Bool :=
  if first = 0xE0 then 0xA0 ≤ second && second ≤ 0xBF
  else if first = 0xED then 0x80 ≤ second && second ≤ 0x9F
  else if first = 0xF0 then 0x90 ≤ second && second ≤ 0xBF
  else if first = 0xF4 then 0x80 ≤ second && second ≤ 0x8F
  else isTail second

def lowBits (count : Nat) (b : UInt8) : Nat := b.toNat % (1 <<< count)

inductive Front where
  | scalar (c : Char) (size : Nat)
  | broken (size : Nat)
  | unfinished
  deriving DecidableEq, Repr

def front (first : UInt8) (rest : Bytes) : Front :=
  match sequenceSize first, rest with
  | 1, _ => .scalar (Char.ofNat first.toNat) 1
  | 2, b :: _ =>
      if isTail b then
        .scalar (Char.ofNat (lowBits 5 first * 64 + lowBits 6 b)) 2
      else .broken 1
  | 3, [b] => if admitsSecond first b then .unfinished else .broken 1
  | 3, b :: c :: _ =>
      if !admitsSecond first b then .broken 1
      else if !isTail c then .broken 2
      else
        .scalar (Char.ofNat
          ((lowBits 4 first * 64 + lowBits 6 b) * 64 + lowBits 6 c)) 3
  | 4, [b] => if admitsSecond first b then .unfinished else .broken 1
  | 4, [b, c] =>
      if !admitsSecond first b then .broken 1
      else if !isTail c then .broken 2
      else .unfinished
  | 4, b :: c :: d :: _ =>
      if !admitsSecond first b then .broken 1
      else if !isTail c then .broken 2
      else if !isTail d then .broken 3
      else
        .scalar (Char.ofNat
          (((lowBits 3 first * 64 + lowBits 6 b) * 64 + lowBits 6 c) * 64 + lowBits 6 d)) 4
  | 2, [] => .unfinished
  | 3, [] => .unfinished
  | 4, [] => .unfinished
  | _, _ => .broken 1

/-! ## Whole byte strings -/

/--
Why a byte string is not text: the length of its longest valid beginning and
the length of the broken sequence there, or nothing if the input ends inside a
character.
-/
structure Defect where
  validUpTo : Nat
  brokenSize : Option Nat
  deriving DecidableEq, Repr

def Defect.message (defect : Defect) : String :=
  match defect.brokenSize with
  | some size =>
      s!"invalid utf-8 sequence of {size} bytes from index {defect.validUpTo}"
  | none => s!"incomplete utf-8 byte sequence from index {defect.validUpTo}"

def decodeFrom (offset : Nat) : Bytes → Except Defect (List Char)
  | [] => .ok []
  | first :: rest =>
      match front first rest with
      | .scalar c size =>
          (decodeFrom (offset + size) (rest.drop (size - 1))).map (c :: ·)
      | .broken size => .error ⟨offset, some size⟩
      | .unfinished => .error ⟨offset, none⟩
  termination_by input => input.length

def decode (input : Bytes) : Except Defect String :=
  (decodeFrom 0 input).map String.ofList

def isText (input : Bytes) : Bool :=
  (decode input).toBool

def replacement : Char := '\uFFFD'

def replacing : Bytes → List Char
  | [] => []
  | first :: rest =>
      match front first rest with
      | .scalar c size => c :: replacing (rest.drop (size - 1))
      | .broken size => replacement :: replacing (rest.drop (size - 1))
      | .unfinished => [replacement]
  termination_by input => input.length

def decodeLossy (input : Bytes) : String :=
  String.ofList (replacing input)

end Stomp.Utf8

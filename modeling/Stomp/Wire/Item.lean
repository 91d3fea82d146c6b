import Stomp.Frame
import Stomp.Wire.Escape
import Stomp.Wire.RawFrame

/-!
# Items

What travels between client and broker: frames, and heartbeats of one line end.
Each item is written by `Item.encode`; `Item.decode` takes the next one from the
front of a buffer.
-/

namespace Stomp.Wire

open Bytes

inductive Item where
  | heartbeat
  | frame (content : Frame)
  deriving DecidableEq, Repr

/-! ## Writing -/

def hasContentLength (frame : Frame) : Bool :=
  frame.headers.any fun header => isContentLength (Utf8.encode header.1)

/-- A body that its NUL alone would not delimit, or that is no text, needs its length. -/
def needsContentLength (frame : Frame) : Bool :=
  !hasContentLength frame && (frame.body.contains nul || !Utf8.isText frame.body)

def sentHeaders (frame : Frame) : List Header :=
  if needsContentLength frame then
    frame.headers ++ [(contentLength, Numeral.write frame.body.length)]
  else frame.headers

def encodeText (verbatim : Bool) (text : String) : Bytes :=
  Utf8.encode (if verbatim then text else escape text)

def encodeHeader (verbatim : Bool) (header : Header) : Bytes :=
  encodeText verbatim header.1 ++ colon :: encodeText verbatim header.2 ++ [lf]

def encodeHead (frame : Frame) : Bytes :=
  Utf8.encode frame.command ++ lf ::
    (sentHeaders frame).flatMap (encodeHeader frame.isVerbatim) ++ [lf]

def encodeFrame (frame : Frame) : Bytes :=
  encodeHead frame ++ frame.body ++ [nul]

def Item.encode : Item → Bytes
  | .heartbeat => [lf]
  | .frame sent => encodeFrame sent

def encodeAll (items : List Item) : Bytes := items.flatMap Item.encode

/-! ## Reading -/

inductive HeaderPart where
  | key
  | value
  deriving DecidableEq, Repr

def HeaderPart.name : HeaderPart → String
  | .key => "key"
  | .value => "value"

inductive DecodeFault where
  | malformed (cause : Malformed)
  | commandNotText (defect : Utf8.Defect)
  | badEscape (part : HeaderPart) (fault : EscapeFault)
  | headerNotText (part : HeaderPart) (defect : Utf8.Defect)
  deriving DecidableEq, Repr

def DecodeFault.message : DecodeFault → String
  | .malformed cause => s!"parse error: {cause.message}"
  | .commandNotText defect => s!"invalid utf8 in command: {defect.message}"
  | .badEscape part fault =>
      s!"invalid escape in header {part.name}: {fault.message}"
  | .headerNotText part defect =>
      s!"invalid utf8 in header {part.name}: {defect.message}"

def decodeText (verbatim : Bool) (part : HeaderPart) (raw : Bytes) :
    Except DecodeFault String := do
  let plain ← if verbatim then pure raw else (unescape raw).mapError (.badEscape part)
  (Utf8.decode plain).mapError (.headerNotText part)

def decodeHeader (verbatim : Bool) (raw : Bytes × Bytes) : Except DecodeFault Header := do
  let key ← decodeText verbatim .key raw.1
  let value ← decodeText verbatim .value raw.2
  return (key, value)

def decodeFrame (raw : RawFrame) : Except DecodeFault Frame := do
  let command ← (Utf8.decode raw.command).mapError .commandNotText
  let headers ← raw.headers.mapM (decodeHeader (Frame.isVerbatimCommand command))
  return ⟨command, headers, raw.body.getD []⟩

inductive Decoding where
  /-- More bytes are needed. -/
  | idle
  | item (item : Item) (rest : Bytes)
  | fault (fault : DecodeFault) (rest : Bytes)
  deriving DecidableEq, Repr

def decodeLeadingFrame (buffer : Bytes) : Decoding :=
  match RawFrame.read buffer with
  | .incomplete => .idle
  | .malformed cause => .fault (.malformed cause) buffer
  | .complete raw rest =>
      match decodeFrame raw with
      | .ok frame => .item (.frame frame) rest
      | .error fault => .fault fault rest

/--
The next item of a buffer.  A line end at the front is a heartbeat; a frame
whose text cannot be read is taken from the buffer, a malformed one stays.
-/
def Item.decode : Bytes → Decoding
  | lf :: rest => .item .heartbeat rest
  | cr :: lf :: rest => .item .heartbeat rest
  | [cr] => .idle
  | buffer => decodeLeadingFrame buffer

theorem Item.decode_eol {buffer rest : Bytes} (h : afterEol? buffer = some rest) :
    Item.decode buffer = .item .heartbeat rest := by
  unfold afterEol? at h
  split at h
  · obtain rfl := Option.some.inj h
    rfl
  · obtain rfl := Option.some.inj h
    rfl
  · simp at h

theorem Item.decode_leading {buffer : Bytes} (h : afterEol? buffer = none)
    (hcr : buffer ≠ [cr]) : Item.decode buffer = decodeLeadingFrame buffer := by
  unfold afterEol? at h
  unfold Item.decode
  split at h <;> simp_all

theorem decodeLeadingFrame_length {buffer rest : Bytes} {item : Item}
    (h : decodeLeadingFrame buffer = .item item rest) : rest.length < buffer.length := by
  unfold decodeLeadingFrame at h
  split at h
  · simp at h
  · simp at h
  · rename_i hread
    split at h
    · obtain ⟨-, rfl⟩ := Decoding.item.inj h
      exact RawFrame.read_length hread
    · simp at h

theorem Item.decode_length {buffer rest : Bytes} {item : Item}
    (h : Item.decode buffer = .item item rest) : rest.length < buffer.length := by
  unfold Item.decode at h
  split at h
  · obtain ⟨-, rfl⟩ := Decoding.item.inj h
    simp
  · obtain ⟨-, rfl⟩ := Decoding.item.inj h
    simp only [List.length_cons]
    omega
  · simp at h
  · exact decodeLeadingFrame_length h

end Stomp.Wire

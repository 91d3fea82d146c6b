import Stomp.Proofs.Wire.Headers

/-!
# The written form

The head of a frame as it is written is one that the grammar knows, if the marks
in its texts do not get in the way (`Legible.writtenHead_spells`).
-/

namespace Stomp.Wire

open Bytes

def writtenHead (frame : Frame) : Head where
  eols := []
  commandLine := Utf8.encode frame.command ++ [lf]
  headerLines := (sentHeaders frame).map (encodeHeader frame.isVerbatim)
  blank := [lf]

def rawHeaders (frame : Frame) : List (Bytes × Bytes) :=
  (sentHeaders frame).map (rawHeader frame.isVerbatim)

theorem writtenHead_bytes (frame : Frame) : (writtenHead frame).bytes = encodeHead frame := by
  simp [writtenHead, Head.bytes, encodeHead, List.flatMap_def]

theorem length_encodeFrame (frame : Frame) :
    (encodeFrame frame).length = (encodeHead frame).length + frame.body.length + 1 := by
  rw [encodeFrame, List.length_append, List.length_append, List.length_singleton]

/-- A frame whose head is read back as it is written. -/
structure Legible (frame : Frame) : Prop where
  command : Opens [] (Utf8.encode frame.command ++ [lf]) (Utf8.encode frame.command)
  headers : ∀ raw ∈ rawHeaders frame, LineSafe raw.1 raw.2

variable {frame : Frame}

theorem WireSafe.legible (h : WireSafe frame) : Legible frame where
  command := by
    have hne : Utf8.encode frame.command ≠ [] := fun hnil =>
      h.command_ne_empty (Utf8.encode_inj.mp hnil)
    exact opens_command hne (mt (Utf8.head_of_encode (by decide)) h.head_command_ne_cr)
      (mt (Utf8.getLast_of_encode (by decide)) h.getLast_command_ne_cr)
      (mt (Utf8.mem_of_mem_encode (by decide)) h.lf_notMem_command)
  headers := by
    rw [rawHeaders, sentHeaders_eq]
    exact lineSafe_received h

theorem Legible.writtenHead_spells (h : Legible frame) :
    (writtenHead frame).Spells (Utf8.encode frame.command) (rawHeaders frame) where
  opens := h.command
  headers := by
    rw [writtenHead, rawHeaders, List.forall₂_map_left_iff, List.forall₂_map_right_iff,
      List.forall₂_same]
    intro header hmem
    have hsafe := h.headers _ (List.mem_map_of_mem hmem)
    have hline := hsafe.wholeLine.isHeaderLine
    rwa [chomp_eq_self hsafe.getLast_value_ne_cr] at hline
  blank := .inl rfl

theorem decode_of_not_isEol {b : UInt8} (hb : isEol b = false) (rest : Bytes) :
    Item.decode (b :: rest) = decodeLeadingFrame (b :: rest) := by
  refine Item.decode_leading (afterEol?_of_not_isEol hb rest) fun h => ?_
  rw [(List.cons.inj h).1] at hb
  exact absurd hb (by decide)

theorem exists_read_of_decode {input rest : Bytes} {frame : Frame}
    (h : Item.decode input = .item (.frame frame) rest) :
    ∃ raw, RawFrame.read input = .complete raw rest ∧ decodeFrame raw = .ok frame := by
  unfold Item.decode at h
  split at h
  · simp at h
  · simp at h
  · simp at h
  unfold decodeLeadingFrame at h
  split at h
  · simp at h
  · simp at h
  next raw left hread =>
  split at h
  · next content hframe =>
      obtain ⟨hcontent, rfl⟩ := Decoding.item.inj h
      obtain rfl := Item.frame.inj hcontent
      exact ⟨raw, hread, hframe⟩
  · simp at h

namespace Legible

theorem read_eq (h : Legible frame) (after : Bytes) :
    RawFrame.read (encodeHead frame ++ after) =
      match declaredLength (rawHeaders frame) with
      | .error cause => .malformed cause
      | .ok declared =>
          (readBody (encodeHead frame).length declared after).map
            (⟨Utf8.encode frame.command, rawHeaders frame, ·⟩) := by
  rw [← writtenHead_bytes]
  exact RawFrame.read_of_spells h.writtenHead_spells after

theorem exists_encodeHead (h : Legible frame) :
    ∃ b rest, encodeHead frame = b :: rest ∧ isEol b = false := by
  have hne := h.command.command_ne_nil
  have hcr := h.command.head_ne_cr
  have hlf := h.command.head_ne_lf
  rw [encodeHead]
  cases hcommand : Utf8.encode frame.command with
  | nil => exact absurd hcommand hne
  | cons b line =>
      rw [hcommand, List.cons_append, List.head?_cons, ne_eq, Option.some.injEq] at hcr hlf
      exact ⟨b, _, rfl, by simp [isEol, hcr, hlf]⟩

theorem decode_of_read (h : Legible frame) {after rest : Bytes} {body : Option Bytes}
    (hread : RawFrame.read (encodeHead frame ++ after) =
      .complete ⟨Utf8.encode frame.command, rawHeaders frame, body⟩ rest) :
    Item.decode (encodeHead frame ++ after) =
      .item (.frame ⟨frame.command, sentHeaders frame, body.getD []⟩) rest := by
  obtain ⟨b, more, hbytes, hb⟩ := h.exists_encodeHead
  have hframe : decodeFrame ⟨Utf8.encode frame.command, rawHeaders frame, body⟩ =
      .ok ⟨frame.command, sentHeaders frame, body.getD []⟩ :=
    decodeFrame_rawHeaders frame.command (sentHeaders frame) body
  rw [hbytes, List.cons_append, decode_of_not_isEol hb, decodeLeadingFrame, ← List.cons_append,
    ← hbytes, hread]
  simp only [hframe]

end Legible

end Stomp.Wire

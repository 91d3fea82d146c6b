import Stomp.Proofs.Text.Numeral
import Stomp.Proofs.Wire.Escape
import Stomp.Wire.Item

/-!
# Frames that are safe to write

`WireSafe` says of the text of a frame when it survives the wire, and `received`
what it comes back as.  Both speak of texts; the lemmas below them say what that
means for the bytes of a head.
-/

namespace Stomp.Wire

open Bytes

/-! ## Declared lengths -/

def DeclaresLength (header : Header) : Prop := header.1.toLower = "content-length"

instance : DecidablePred DeclaresLength := fun header =>
  inferInstanceAs (Decidable (header.1.toLower = "content-length"))

/-- A body that a NUL cannot delimit or that is no text, in a frame that does not say its length. -/
def LacksLength (frame : Frame) : Prop :=
  (∀ header ∈ frame.headers, ¬ DeclaresLength header) ∧
    (nul ∈ frame.body ∨ ¬ ∃ text, Utf8.encode text = frame.body)

instance : DecidablePred LacksLength := fun frame =>
  inferInstanceAs (Decidable ((∀ header ∈ frame.headers, ¬ DeclaresLength header) ∧
    (nul ∈ frame.body ∨ ¬ ∃ text, Utf8.encode text = frame.body)))

/-- A frame after its journey: the length of the body is added where it lacks. -/
def received (frame : Frame) : Frame :=
  if LacksLength frame then
    frame.addHeader "content-length" (Numeral.write frame.body.length)
  else frame

/-! ## Safety -/

/-- A header that needs no escapes: nothing in it ends its line or its name. -/
structure VerbatimSafe (header : Header) : Prop where
  lf_notMem_name : '\n' ∉ header.1.toList
  colon_notMem_name : ':' ∉ header.1.toList
  lf_notMem_value : '\n' ∉ header.2.toList
  getLast_value_ne_cr : header.2.toList.getLast? ≠ some '\r'

structure WireSafe (frame : Frame) : Prop where
  command_ne_empty : frame.command ≠ ""
  lf_notMem_command : '\n' ∉ frame.command.toList
  head_command_ne_cr : frame.command.toList.head? ≠ some '\r'
  getLast_command_ne_cr : frame.command.toList.getLast? ≠ some '\r'
  /-- These commands write their headers without escapes. -/
  verbatim : frame.command ∈ ["CONNECT", "CONNECTED", "STOMP"] →
    ∀ header ∈ frame.headers, VerbatimSafe header
  declared : ∀ header, frame.headers.find? (DeclaresLength ·) = some header →
    header.2 = Numeral.write frame.body.length
  bounded : (∃ header ∈ (received frame).headers, DeclaresLength header) →
    frame.body.length ≤ 16 * 1024 * 1024

/-! ## Names -/

theorem isContentLength_encode (name : String) :
    isContentLength (Utf8.encode name) = true ↔ name.toLower = "content-length" := by
  have hlower : contentLength.toLower = "content-length" := by decide +kernel
  rw [isContentLength, sameIgnoringCase, beq_iff_eq, Utf8.map_lowerAscii_encode,
    Utf8.map_lowerAscii_encode, Utf8.encode_inj, hlower]

theorem hasContentLength_iff (frame : Frame) :
    hasContentLength frame = true ↔ ∃ header ∈ frame.headers, DeclaresLength header := by
  simp only [hasContentLength, List.any_eq_true, isContentLength_encode, DeclaresLength]

theorem needsContentLength_iff (frame : Frame) :
    needsContentLength frame = true ↔ LacksLength frame := by
  have htext : Utf8.isText frame.body = false ↔ ¬ ∃ text, Utf8.encode text = frame.body := by
    rw [← Utf8.isText_iff, Bool.not_eq_true]
  have hlength : hasContentLength frame = false ↔
      ∀ header ∈ frame.headers, ¬ DeclaresLength header := by
    rw [← Bool.not_eq_true, hasContentLength_iff]
    simp
  simp only [needsContentLength, LacksLength, Bool.and_eq_true, Bool.or_eq_true,
    Bool.not_eq_true', List.contains_iff_mem, hlength, htext]

theorem sentHeaders_eq (frame : Frame) : sentHeaders frame = (received frame).headers := by
  unfold sentHeaders received
  by_cases h : LacksLength frame
  · rw [if_pos ((needsContentLength_iff frame).mpr h), if_pos h]
    rfl
  · rw [if_neg (mt (needsContentLength_iff frame).mp h), if_neg h]

@[simp] theorem received_command (frame : Frame) : (received frame).command = frame.command := by
  unfold received
  split <;> rfl

@[simp] theorem received_body (frame : Frame) : (received frame).body = frame.body := by
  unfold received
  split <;> rfl

theorem received_eq (frame : Frame) :
    received frame = ⟨frame.command, sentHeaders frame, frame.body⟩ := by
  rw [sentHeaders_eq, ← received_command frame, ← received_body frame]

theorem declaresLength_added (value : String) : DeclaresLength ("content-length", value) := by
  have hlower : "content-length".toLower = "content-length" := by decide +kernel
  exact hlower

theorem received_received (frame : Frame) : received (received frame) = received frame := by
  by_cases h : LacksLength frame
  · have hadded : received frame =
        frame.addHeader "content-length" (Numeral.write frame.body.length) := if_pos h
    have hlength : ¬ LacksLength (received frame) := by
      intro hlacks
      refine hlacks.1 _ ?_ (declaresLength_added (Numeral.write frame.body.length))
      simp [hadded, Frame.addHeader]
    exact if_neg hlength
  · have hsame : received frame = frame := if_neg h
    rw [hsame, hsame]

theorem mem_received_headers {frame : Frame} {header : Header}
    (h : header ∈ (received frame).headers) :
    header ∈ frame.headers ∨
      header = ("content-length", Numeral.write frame.body.length) := by
  unfold received at h
  split at h
  · simpa [Frame.addHeader] using h
  · exact .inl h

theorem WireSafe.declared_received {frame : Frame} (h : WireSafe frame) {header : Header}
    (hfind : (received frame).headers.find? (DeclaresLength ·) = some header) :
    header.2 = Numeral.write frame.body.length := by
  unfold received at hfind
  split at hfind
  · rename_i hlacks
    have hnone : frame.headers.find? (DeclaresLength ·) = none := by
      simpa [List.find?_eq_none] using hlacks.1
    rw [Frame.addHeader, List.find?_append, hnone, Option.none_or] at hfind
    have hmem := List.mem_of_find?_eq_some hfind
    rw [List.mem_singleton.mp hmem]
  · exact h.declared header hfind

theorem nul_notMem_body {frame : Frame}
    (h : (received frame).headers.find? (DeclaresLength ·) = none) : nul ∉ frame.body := by
  intro hnul
  unfold received at h
  split at h
  · rw [Frame.addHeader, List.find?_append, Option.or_eq_none_iff] at h
    simpa [declaresLength_added] using h.2
  · rename_i hlacks
    refine hlacks ⟨fun header hmem => ?_, .inl hnul⟩
    simpa using List.find?_eq_none.mp h header hmem

end Stomp.Wire

import Stomp.Proofs.Text.Utf8
import Stomp.Proofs.Wire.WireSafe
import Stomp.Socket.Transport

/-!
# What a transport sends

An open connection gets one message for each item.  Whether it is text depends on the body
of the frame alone, since everything around the body is text; and a body whose end its NUL
would not show has its length in the head (`Transport.send_item`).
-/

namespace Stomp

/-! ## Text around a body -/

namespace Utf8

theorem encode_append (first last : String) :
    encode (first ++ last) = encode first ++ encode last := by
  rw [encode, String.toList_append, List.flatMap_append, encode, encode]

theorem exists_encode_flatMap {α : Type} {write : α → Bytes} {parts : List α}
    (h : ∀ part ∈ parts, ∃ text, encode text = write part) :
    ∃ text, encode text = parts.flatMap write := by
  induction parts with
  | nil => exact ⟨"", rfl⟩
  | cons part parts ih =>
      obtain ⟨hpart, hparts⟩ := List.forall_mem_cons.mp h
      obtain ⟨first, hfirst⟩ := hpart
      obtain ⟨last, hlast⟩ := ih hparts
      exact ⟨first ++ last, by rw [encode_append, hfirst, hlast, List.flatMap_cons]⟩

end Utf8

namespace Wire

open Bytes

def headWith (frame : Frame) (headers : List Header) : Bytes :=
  Utf8.encode frame.command ++ lf :: headers.flatMap (encodeHeader frame.isVerbatim) ++ [lf]

theorem encodeFrame_eq (frame : Frame) :
    encodeFrame frame = headWith frame (sentHeaders frame) ++ frame.body ++ [nul] := rfl

theorem exists_encode_header (verbatim : Bool) (header : Header) :
    ∃ text, Utf8.encode text = encodeHeader verbatim header := by
  have htext (plain : String) : ∃ text, Utf8.encode text = encodeText verbatim plain :=
    ⟨_, rfl⟩
  rw [encodeHeader, List.append_assoc, List.cons_append,
    Utf8.encodes_ascii_iff (by decide), Utf8.encodes_ascii_iff (by decide)]
  exact ⟨htext header.1, htext header.2, "", rfl⟩

theorem exists_encode_frame_iff (frame : Frame) :
    (∃ text, Utf8.encode text = encodeFrame frame) ↔ ∃ text, Utf8.encode text = frame.body := by
  rw [encodeFrame_eq, headWith, List.append_assoc, List.append_assoc, List.singleton_append,
    Utf8.encodes_ascii_iff (by decide), Utf8.encodes_ascii_iff (by decide),
    Utf8.encodes_ascii_iff (by decide)]
  have hlines : ∃ text, Utf8.encode text =
      (sentHeaders frame).flatMap (encodeHeader frame.isVerbatim) :=
    Utf8.exists_encode_flatMap fun header _ => exists_encode_header frame.isVerbatim header
  exact ⟨fun h => h.2.1, fun h => ⟨⟨⟨_, rfl⟩, hlines⟩, h, "", rfl⟩⟩

theorem sentHeaders_cases (frame : Frame) :
    sentHeaders frame = frame.headers ∨
      (∀ header ∈ frame.headers, ¬ DeclaresLength header) ∧
        sentHeaders frame =
          frame.headers ++ [("content-length", Numeral.write frame.body.length)] := by
  rw [sentHeaders_eq, received]
  split
  · next hlacks => exact .inr ⟨hlacks.1, rfl⟩
  · exact .inl rfl

theorem exists_declaresLength (frame : Frame) (h : ¬ ∃ text, Utf8.encode text = frame.body) :
    ∃ header ∈ sentHeaders frame, DeclaresLength header := by
  rw [sentHeaders_eq, received]
  split
  · exact ⟨_, by simp [Frame.addHeader],
      declaresLength_added (Numeral.write frame.body.length)⟩
  · next hlacks =>
      by_contra hnone
      exact hlacks ⟨fun header hmem hdeclares => hnone ⟨header, hmem, hdeclares⟩, .inr h⟩

end Wire

/-! ## Messages -/

namespace Socket

open Bytes Wire

/-- The shape of a message that has a frame in it, with the headers that are written. -/
structure Carries (message : Message) (frame : Frame) (headers : List Header) : Prop where
  payload : Transport.content message =
    .payload (headWith frame headers ++ frame.body ++ [nul])
  isText_iff : (∃ text, message = .text text) ↔ ∃ text, Utf8.encode text = frame.body
  isBinary_iff : (∃ payload, message = .binary payload) ↔ ¬ ∃ text, Utf8.encode text = frame.body
  /-- The headers are the frame's own, and the length of the body may come after them. -/
  headers_cases : headers = frame.headers ∨
    (∀ header ∈ frame.headers, ¬ DeclaresLength header) ∧
      headers = frame.headers ++ [("content-length", Numeral.write frame.body.length)]
  declares_of_binary : (∃ payload, message = .binary payload) →
    ∃ header ∈ headers, DeclaresLength header
  /-- Without a length, what follows the head has one NUL, which is its last byte. -/
  nul_is_last : (∀ header ∈ headers, ¬ DeclaresLength header) →
    ∀ before after, frame.body ++ [nul] = before ++ nul :: after →
      before = frame.body ∧ after = []

namespace Transport

theorem content_messageOf (item : Item) : content (messageOf item) = .payload item.encode := by
  unfold messageOf
  split
  · next text hdecode => rw [content, Utf8.decode_eq_ok_iff.mp hdecode]
  · rfl

theorem messageOf_isText_iff (item : Item) :
    (∃ text, messageOf item = .text text) ↔ ∃ text, Utf8.encode text = item.encode := by
  simp only [← Utf8.decode_eq_ok_iff, messageOf]
  cases Utf8.decode item.encode <;> simp

theorem messageOf_isBinary_iff (item : Item) :
    (∃ payload, messageOf item = .binary payload) ↔
      ¬ ∃ text, Utf8.encode text = item.encode := by
  simp only [← Utf8.decode_eq_ok_iff, messageOf]
  cases Utf8.decode item.encode <;> simp

theorem carries_messageOf (frame : Frame) :
    Carries (messageOf (.frame frame)) frame (sentHeaders frame) where
  payload := content_messageOf (.frame frame)
  isText_iff := (messageOf_isText_iff (.frame frame)).trans (exists_encode_frame_iff frame)
  isBinary_iff :=
    (messageOf_isBinary_iff (.frame frame)).trans (not_congr (exists_encode_frame_iff frame))
  headers_cases := sentHeaders_cases frame
  declares_of_binary hbinary := by
    rw [messageOf_isBinary_iff] at hbinary
    exact exists_declaresLength frame (mt (exists_encode_frame_iff frame).mpr hbinary)
  nul_is_last hnone before after hsplit := by
    rw [sentHeaders_eq] at hnone
    have hbody : nul ∉ frame.body :=
      nul_notMem_body (List.find?_eq_none.mpr fun header hmem => by simpa using hnone header hmem)
    rcases List.eq_nil_or_concat after with rfl | ⟨more, b, rfl⟩
    · exact ⟨(List.append_inj_left' hsplit rfl).symm, rfl⟩
    · rw [List.concat_eq_append, ← List.cons_append, ← List.append_assoc] at hsplit
      rw [List.append_inj_left' hsplit rfl] at hbody
      simp at hbody

/--
Over an open connection an item is sent as one message, whose payload is what is written for
the item.  A heartbeat is text, and a frame is text if its body is.  A frame that is not text
has a content-length in its head, and one without it has a single NUL after its head, which
ends it.
-/
theorem send_item {transport : Transport} (hopen : transport.isOpen = true) (item : Item) :
    ∃ message, transport.send item = .ok message ∧ content message = .payload item.encode ∧
      (item = .heartbeat → message = .text "\n") ∧
      ∀ frame, item = .frame frame → ∃ headers, Carries message frame headers := by
  refine ⟨messageOf item, if_pos hopen, content_messageOf item, ?_, ?_⟩
  · rintro rfl
    decide +kernel
  · rintro frame rfl
    exact ⟨sentHeaders frame, carries_messageOf frame⟩

theorem send_item_cut :
    let frame : Frame := ⟨"SEND", [("destination", "/queue/a")], [0x41, 0xE2, 0x82, nul]⟩
    let transport : Transport := { codec := ⟨true⟩, subprotocols := [], isOpen := true }
    ∃ message, transport.isOpen = true ∧ transport.send (.frame frame) = .ok message ∧
      (∃ payload, message = .binary payload) ∧
      content message = .payload
        (headWith frame [("destination", "/queue/a"), ("content-length", "4")] ++
          [0x41, 0xE2, 0x82, nul, nul]) := by
  intro frame transport
  have hopen : transport.isOpen = true := rfl
  have hbody : ¬ ∃ text, Utf8.encode text = frame.body := by decide +kernel
  have hplain : ¬ ∃ header ∈ frame.headers, DeclaresLength header := by decide +kernel
  obtain ⟨message, hsend, -, -, hcarries⟩ := send_item hopen (.frame frame)
  obtain ⟨headers, hcarries⟩ := hcarries frame rfl
  have hbinary := hcarries.isBinary_iff.mpr hbody
  refine ⟨message, hopen, hsend, hbinary, ?_⟩
  have hdeclares := hcarries.declares_of_binary hbinary
  obtain rfl | ⟨-, rfl⟩ := hcarries.headers_cases
  · exact absurd hdeclares hplain
  · have hlength : Numeral.write frame.body.length = "4" := by decide +kernel
    rw [hcarries.payload, hlength, List.append_assoc]
    rfl

end Transport

end Socket

end Stomp

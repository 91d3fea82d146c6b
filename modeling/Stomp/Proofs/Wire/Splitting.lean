import Stomp.Proofs.Wire.Completion
import Stomp.Proofs.Wire.Losses
import Stomp.Proofs.Wire.Written

/-!
# Frames in two messages

With completion, the first part of a frame may be taken for the whole of it.  It is
not exactly if the part ends inside the head, or inside a body whose length is
declared (`Codec.decodeMessages_of_cut`).
-/

namespace Stomp.Wire

open Bytes

/-! ## Lengths that are sent -/

variable {sent : Frame} {front back first last : Bytes}

theorem declaredLength_rawHeaders (h : WireSafe sent) :
    declaredLength (rawHeaders sent) =
      .ok (((sentHeaders sent).find? (DeclaresLength ·)).map fun _ => sent.body.length) := by
  rw [rawHeaders, sentHeaders_eq, declaredLength_received h]

theorem declaredLength_of_declares (h : WireSafe sent)
    (hlength : ∃ header ∈ sentHeaders sent, DeclaresLength header) :
    declaredLength (rawHeaders sent) = .ok (some sent.body.length) := by
  rw [declaredLength_rawHeaders h]
  cases hfind : (sentHeaders sent).find? (DeclaresLength ·) with
  | some header => rfl
  | none =>
      obtain ⟨header, hmem, hdeclares⟩ := hlength
      simpa [hdeclares] using List.find?_eq_none.mp hfind header hmem

theorem declaredLength_of_not_declares (h : WireSafe sent)
    (hlength : ¬ ∃ header ∈ sentHeaders sent, DeclaresLength header) :
    declaredLength (rawHeaders sent) = .ok none ∧ nul ∉ sent.body := by
  have hfind : (sentHeaders sent).find? (DeclaresLength ·) = none := by
    simpa [List.find?_eq_none] using hlength
  rw [declaredLength_rawHeaders h, hfind]
  rw [sentHeaders_eq] at hfind
  exact ⟨rfl, nul_notMem_body hfind⟩

/-! ## Parts of a frame -/

theorem isCompletable_of_short (h : WireSafe sent) (hcut : first ++ last = encodeFrame sent)
    (hshort : first.length < (encodeHead sent).length) : isCompletable first = false := by
  cases hcompletable : isCompletable first with
  | false => rfl
  | true =>
      obtain ⟨-, raw, hread⟩ := isCompletable_iff.mp hcompletable
      obtain ⟨head, content, tail, declared, hinput, -, hhead, -⟩ :=
        RawFrame.read_eq_complete_iff.mp hread
      have hfirst : first = head.bytes ++ (content ++ nul :: tail).dropLast := by
        rw [← List.dropLast_append_of_ne_nil (by simp), ← hinput, List.dropLast_concat]
      have hsame : head.bytes ++ ((content ++ nul :: tail).dropLast ++ last) =
          (writtenHead sent).bytes ++ (sent.body ++ [nul]) := by
        rw [← List.append_assoc, ← hfirst, hcut, writtenHead_bytes, encodeFrame, List.append_assoc]
      obtain ⟨hbytes, -⟩ := hhead.unique h.legible.writtenHead_spells hsame
      rw [← writtenHead_bytes, ← hbytes, hfirst, List.length_append] at hshort
      omega

theorem isCompletable_of_lacks (h : WireSafe sent)
    (hlength : ∃ header ∈ sentHeaders sent, DeclaresLength header)
    (hbody : front ++ back = sent.body) (hback : back ≠ []) :
    isCompletable (encodeHead sent ++ front) = false := by
  cases hcompletable : isCompletable (encodeHead sent ++ front) with
  | false => rfl
  | true =>
      obtain ⟨-, raw, hread⟩ := isCompletable_iff.mp hcompletable
      rw [List.append_assoc, h.legible.read_eq, declaredLength_of_declares h hlength] at hread
      obtain ⟨body, hread, -⟩ := Reading.map_eq_complete.mp hread
      obtain ⟨content, tail, hinput, -, hdelimits⟩ := readBody_eq_complete_iff.mp hread
      have hcontent := hdelimits.length_eq
      have hshort := congrArg List.length hinput
      have hpositive := List.length_pos_iff.mpr hback
      rw [← hbody] at hcontent
      simp only [List.length_append, List.length_cons, List.length_nil] at hcontent hshort
      omega

theorem exists_read_of_passes (h : WireSafe sent)
    (hsize : (encodeFrame sent).length < Numeral.word64) (hbody : front ++ back = sent.body)
    (hpasses : back = [] ∨ ¬ ∃ header ∈ sentHeaders sent, DeclaresLength header) :
    ∃ body, body.getD [] = front ∧
      RawFrame.read (encodeHead sent ++ (front ++ [nul])) =
        .complete ⟨Utf8.encode sent.command, rawHeaders sent, body⟩ [] := by
  have hnothing : skipEol [] = [] := rfl
  by_cases hlength : ∃ header ∈ sentHeaders sent, DeclaresLength header
  · obtain rfl := hpasses.resolve_right (not_not_intro hlength)
    rw [List.append_nil] at hbody
    have hbound : front.length ≤ 16 * 1024 * 1024 := by
      rw [sentHeaders_eq] at hlength
      rw [hbody]
      exact h.bounded hlength
    have hend : (encodeHead sent).length + front.length + 1 < Numeral.word64 := by
      rwa [length_encodeFrame, ← hbody] at hsize
    refine ⟨some front, rfl, ?_⟩
    rw [h.legible.read_eq, declaredLength_of_declares h hlength, ← hbody]
    simp only [readBody_eq_complete_iff.mpr ⟨front, [], rfl, hnothing, .length hbound hend⟩,
      Reading.map]
  · obtain ⟨hdeclared, hnul⟩ := declaredLength_of_not_declares h hlength
    have hfront : nul ∉ front := fun hmem => hnul (hbody ▸ List.mem_append_left _ hmem)
    refine ⟨if front = [] then none else some front, by split <;> simp_all, ?_⟩
    rw [h.legible.read_eq, hdeclared]
    simp only [readBody_eq_complete_iff.mpr ⟨front, [], rfl, hnothing, .nul hfront⟩, Reading.map]

/-! ## Messages -/

theorem drain_encodeFrame (h : WireSafe sent) (hsize : (encodeFrame sent).length < Numeral.word64) :
    drain (encodeFrame sent) = ⟨[.frame (received sent)], [], none⟩ := by
  have hnothing : skipEol [] = [] := rfl
  have hdecode := decode_encodeFrame h hsize []
  rw [List.append_nil, hnothing] at hdecode
  rw [drain_item hdecode, drain_idle rfl]

namespace Codec

variable {codec : Codec}

theorem decodeMessages_of_not_completable (h : WireSafe sent)
    (hsize : (encodeFrame sent).length < Numeral.word64)
    (hcut : first ++ last = encodeFrame sent) (hlast : last ≠ [])
    (hwaits : isCompletable first = false) :
    codec.decodeMessages 0 [] [first, last] = ⟨[.frame (received sent)], [], none⟩ := by
  have hempty : isCompletable [] = false := rfl
  have hfirst : drain first = ⟨[], first, none⟩ := drain_idle (decode_front h hsize hcut hlast)
  simp [decodeMessages, decodeMessage, hfirst, hcut, hwaits, drain_encodeFrame h hsize, hempty,
    Drained.intake]

theorem decodeMessage_of_passes (hon : codec.completes = true) (h : WireSafe sent)
    (hsize : (encodeFrame sent).length < Numeral.word64) (hbody : front ++ back = sent.body)
    (hpasses : back = [] ∨ ¬ ∃ header ∈ sentHeaders sent, DeclaresLength header) :
    codec.decodeMessage [] (encodeHead sent ++ front) =
      ⟨.ok [.frame ⟨sent.command, sentHeaders sent, front⟩], []⟩ := by
  have hcut : encodeHead sent ++ front ++ (back ++ [nul]) = encodeFrame sent := by
    rw [encodeFrame, ← hbody]
    simp only [List.append_assoc]
  have hidle := drain_idle (decode_front h hsize hcut (by simp))
  obtain ⟨body, hfront, hread⟩ := exists_read_of_passes h hsize hbody hpasses
  have hitem := h.legible.decode_of_read hread
  rw [hfront, ← List.append_assoc] at hitem
  rw [← List.append_assoc] at hread
  have hcompletable : isCompletable (encodeHead sent ++ front) = true := by
    obtain ⟨b, rest, hhead, hb⟩ := h.legible.exists_encodeHead
    refine isCompletable_iff.mpr ⟨?_, _, hread⟩
    rw [hhead, List.cons_append, List.all_cons, hb, Bool.false_and]
  have hempty : Item.decode [] = .idle := rfl
  have hcompleted := drain_item hitem
  rw [drain_idle hempty] at hcompleted
  generalize encodeHead sent ++ front = part at hidle hcompletable hcompleted ⊢
  simp [decodeMessage, hidle, hon, hcompletable, hcompleted, Drained.intake]

theorem decodeMessages_of_passes (hon : codec.completes = true) (h : WireSafe sent)
    (hsize : (encodeFrame sent).length < Numeral.word64) (hbody : front ++ back = sent.body)
    (hpasses : back = [] ∨ ¬ ∃ header ∈ sentHeaders sent, DeclaresLength header) :
    codec.decodeMessages 0 [] [encodeHead sent ++ front, back ++ [nul]] ≠
      ⟨[.frame (received sent)], [], none⟩ := by
  intro hwhole
  rw [decodeMessages, decodeMessage_of_passes hon h hsize hbody hpasses] at hwhole
  simp only [List.singleton_append, Stream.mk.injEq, List.cons.injEq, Item.frame.injEq] at hwhole
  obtain ⟨⟨hframe, -⟩, hbuffer, -⟩ := hwhole
  have hfront : front = sent.body := by
    rw [← received_body sent, ← hframe]
  obtain rfl : back = [] := by
    rw [hfront] at hbody
    exact List.append_right_eq_self.mp hbody
  -- the NUL that is left over begins the next frame
  have hidle : Item.decode [nul] = .idle := by decide +kernel
  have hwaits : isCompletable [nul] = false := by decide +kernel
  simp [decodeMessages, decodeMessage, drain_idle hidle, hwaits, Drained.intake] at hbuffer

/--
A frame that comes in two messages comes back as it does in one, and nothing is left, exactly
if the first message ends inside the head, or has less than the body of a frame that is
sent with its length.  The length of a buffer is a 64-bit word.
-/
theorem decodeMessages_of_cut (hon : codec.completes = true) (h : WireSafe sent)
    (hsize : (encodeFrame sent).length < Numeral.word64)
    (hcut : first ++ last = encodeFrame sent) (hlast : last ≠ []) :
    drain (encodeFrame sent) = ⟨[.frame (received sent)], [], none⟩ ∧
      (codec.decodeMessages 0 [] [first, last] = ⟨[.frame (received sent)], [], none⟩ ↔
        first.length < (encodeHead sent).length ∨
          (∃ header ∈ sentHeaders sent, DeclaresLength header) ∧
            first.length < (encodeHead sent).length + sent.body.length) := by
  refine ⟨drain_encodeFrame h hsize, ?_⟩
  by_cases hshort : first.length < (encodeHead sent).length
  · have hwaits := isCompletable_of_short h hcut hshort
    simp [decodeMessages_of_not_completable h hsize hcut hlast hwaits, hshort]
  obtain ⟨back, rfl⟩ := exists_back_of_cut hcut hlast
  obtain ⟨front, rfl⟩ : encodeHead sent <+: first := by
    refine List.prefix_of_prefix_length_le ?_ (List.prefix_append first (back ++ [nul]))
      (Nat.not_lt.mp hshort)
    rw [hcut, encodeFrame, List.append_assoc]
    exact List.prefix_append _ _
  have hbody : front ++ back = sent.body := by
    rw [encodeFrame] at hcut
    simp only [List.append_assoc] at hcut
    have hafter := List.append_cancel_left hcut
    rw [← List.append_assoc] at hafter
    exact List.append_cancel_right hafter
  have hlack : (encodeHead sent ++ front).length <
      (encodeHead sent).length + sent.body.length ↔ back ≠ [] := by
    rw [← hbody, List.length_append, List.length_append, ne_eq, ← List.length_eq_zero_iff]
    omega
  rw [or_iff_right hshort, hlack]
  constructor
  · intro hwhole
    by_contra hpasses
    refine decodeMessages_of_passes hon h hsize hbody ?_ hwhole
    by_cases hback : back = []
    · exact .inl hback
    · exact .inr fun hlength => hpasses ⟨hlength, hback⟩
  · rintro ⟨hlength, hback⟩
    have hwaits := isCompletable_of_lacks h hlength hbody hback
    exact decodeMessages_of_not_completable h hsize hcut hlast hwaits

theorem decodeMessages_of_cut_insideBody :
    let binary : Frame := ⟨"SEND", [("k:\n\\", "\r")], [0x00, 0xFF]⟩
    WireSafe lineFrame ∧ (encodeFrame lineFrame).length < Numeral.word64 ∧
      WireSafe binary ∧ (encodeFrame binary).length < Numeral.word64 ∧
      decodeMessages ⟨true⟩ 0 [] [encodeHead lineFrame ++ [0x68], [0x69, cr, lf, nul]] ≠
        ⟨[.frame lineFrame], [], none⟩ ∧
      decodeMessages ⟨true⟩ 0 [] [encodeHead binary ++ [0x00], [0xFF, nul]] =
        ⟨[.frame ⟨"SEND", [("k:\n\\", "\r"), ("content-length", "2")], [0x00, 0xFF]⟩], [],
          none⟩ := by
  intro binary
  have hbinary : WireSafe binary :=
    wireSafe_greetingAndMessage binary (by simp [greetingAndMessage, binary])
  have hline : (encodeFrame lineFrame).length < Numeral.word64 := by decide +kernel
  have hsize : (encodeFrame binary).length < Numeral.word64 := by decide +kernel
  have hreceived : received lineFrame = lineFrame := by decide +kernel
  have hadded : received binary =
      ⟨"SEND", [("k:\n\\", "\r"), ("content-length", "2")], [0x00, 0xFF]⟩ := by decide +kernel
  have hon : Codec.completes ⟨true⟩ = true := rfl
  have hcut := (decodeMessages_of_cut hon wireSafe_lineFrame hline
    (by decide +kernel : encodeHead lineFrame ++ [0x68] ++ [0x69, cr, lf, nul] = _) (by simp)).2
  have hcut' := (decodeMessages_of_cut hon hbinary hsize
    (by decide +kernel : encodeHead binary ++ [0x00] ++ [0xFF, nul] = _) (by simp)).2
  rw [hreceived] at hcut
  rw [hadded] at hcut'
  exact ⟨wireSafe_lineFrame, hline, hbinary, hsize, mt hcut.mp (by decide +kernel),
    hcut'.mpr (by decide +kernel)⟩

end Codec

end Stomp.Wire

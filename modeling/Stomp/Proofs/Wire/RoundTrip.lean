import Stomp.Proofs.Wire.Written
import Stomp.Wire.Codec

/-!
# What is written is read back

A stream of items that are safe to write comes back as itself, but for the
length that is added to some frames and for the heartbeats that pass as the line
end after a frame (`drain_encodeAll`).
-/

namespace Stomp.Wire

open Bytes

/-! ## Frames -/

def headerLines (frame : Frame) : Bytes :=
  ((received frame).headers.map (rawHeader frame.isVerbatim)).flatMap fun raw =>
    raw.1 ++ colon :: raw.2 ++ [lf]

theorem encodeFrame_append (frame : Frame) (rest : Bytes) :
    encodeFrame frame ++ rest =
      Utf8.encode frame.command ++ lf ::
        (headerLines frame ++ lf :: (frame.body ++ nul :: rest)) := by
  have hline : encodeHeader frame.isVerbatim = fun header =>
      (rawHeader frame.isVerbatim header).1 ++
        colon :: (rawHeader frame.isVerbatim header).2 ++ [lf] := rfl
  rw [encodeFrame, encodeHead, sentHeaders_eq, headerLines, List.flatMap_map, hline]
  simp only [List.append_assoc, List.cons_append, List.nil_append]

theorem exists_delimits_received {frame : Frame} (h : WireSafe frame)
    (hsize : (encodeFrame frame).length < Numeral.word64) :
    ∃ declared body, declaredLength (rawHeaders frame) = .ok declared ∧
      Delimits (encodeHead frame).length frame.body declared body := by
  rw [rawHeaders, sentHeaders_eq, declaredLength_received h]
  cases hfind : (received frame).headers.find? (DeclaresLength ·) with
  | none => exact ⟨_, _, rfl, .nul (nul_notMem_body hfind)⟩
  | some header =>
      have hbound := h.bounded
        ⟨header, List.mem_of_find?_eq_some hfind, by simpa using List.find?_some hfind⟩
      rw [length_encodeFrame] at hsize
      exact ⟨_, _, rfl, .length hbound hsize⟩

theorem encodeFrame_split (frame : Frame) (rest : Bytes) :
    encodeFrame frame ++ rest = encodeHead frame ++ (frame.body ++ nul :: rest) := by
  rw [encodeFrame, List.append_assoc, List.append_assoc, List.singleton_append]

theorem read_encodeFrame {frame : Frame} (h : WireSafe frame)
    (hsize : (encodeFrame frame).length < Numeral.word64) (rest : Bytes) :
    ∃ body, body.getD [] = frame.body ∧
      RawFrame.read (encodeFrame frame ++ rest) =
        .complete ⟨Utf8.encode frame.command, rawHeaders frame, body⟩ (skipEol rest) := by
  obtain ⟨declared, body, hdeclared, hbody⟩ := exists_delimits_received h hsize
  refine ⟨body, hbody.getD_body, ?_⟩
  rw [encodeFrame_split, h.legible.read_eq, hdeclared]
  simp only [readBody_eq_complete_iff.mpr ⟨_, _, rfl, rfl, hbody⟩, Reading.map]

theorem decode_encodeFrame {frame : Frame} (h : WireSafe frame)
    (hsize : (encodeFrame frame).length < Numeral.word64) (rest : Bytes) :
    Item.decode (encodeFrame frame ++ rest) =
      .item (.frame (received frame)) (skipEol rest) := by
  obtain ⟨body, hbody, hread⟩ := read_encodeFrame h hsize rest
  rw [encodeFrame_split] at hread ⊢
  rw [h.legible.decode_of_read hread, hbody, received_eq]

/-! ## Streams -/

/-- What becomes of a stream: a heartbeat right after a frame passes as the end of its line. -/
def receivedAll : List Item → List Item
  | [] => []
  | .heartbeat :: items => .heartbeat :: receivedAll items
  | .frame sent :: .heartbeat :: items => .frame (received sent) :: receivedAll items
  | .frame sent :: items => .frame (received sent) :: receivedAll items

theorem encodeAll_cons (item : Item) (items : List Item) :
    encodeAll (item :: items) = item.encode ++ encodeAll items := List.flatMap_cons

theorem skipEol_encodeAll_append {items : List Item} {rest : Bytes}
    (hsafe : ∀ sent, .frame sent ∈ items → WireSafe sent)
    (hfirst : ∀ later, items ≠ .heartbeat :: later) (hrest : skipEol rest = rest) :
    skipEol (encodeAll items ++ rest) = encodeAll items ++ rest := by
  cases items with
  | nil => exact hrest
  | cons item items =>
      cases item with
      | heartbeat => exact absurd rfl (hfirst items)
      | frame sent =>
          obtain ⟨b, line, hhead, hb⟩ :=
            (hsafe sent List.mem_cons_self).legible.exists_encodeHead
          rw [encodeAll_cons, Item.encode, List.append_assoc, encodeFrame_split, hhead,
            List.cons_append, skipEol_eq_self hb]

/-- Items that are safe to write are taken, whatever follows them but a line end. -/
theorem drain_encodeAll_append {items : List Item} {rest : Bytes}
    (hsafe : ∀ sent, .frame sent ∈ items → WireSafe sent)
    (hsize : (encodeAll items).length < Numeral.word64) (hrest : skipEol rest = rest) :
    drain (encodeAll items ++ rest) =
      { drain rest with items := receivedAll items ++ (drain rest).items } := by
  fun_induction receivedAll items with
  | case1 => rfl
  | case2 items ih =>
      rw [encodeAll_cons, List.length_append] at hsize
      have hothers := ih (fun sent hmem => hsafe sent (List.mem_cons_of_mem _ hmem)) (by omega)
      have hbeat : Item.decode (lf :: (encodeAll items ++ rest)) =
          .item .heartbeat (encodeAll items ++ rest) := rfl
      rw [encodeAll_cons, Item.encode, List.singleton_append, List.cons_append,
        drain_item hbeat, hothers]
      rfl
  | case3 sent items ih =>
      rw [encodeAll_cons, encodeAll_cons, List.length_append, List.length_append] at hsize
      simp only [Item.encode] at hsize
      have hothers := ih
        (fun other hmem =>
          hsafe other (List.mem_cons_of_mem _ (List.mem_cons_of_mem _ hmem)))
        (by omega)
      have hframe := decode_encodeFrame (hsafe sent List.mem_cons_self) (by omega)
        (lf :: (encodeAll items ++ rest))
      have hskip : skipEol (lf :: (encodeAll items ++ rest)) = encodeAll items ++ rest := rfl
      rw [hskip] at hframe
      rw [encodeAll_cons, encodeAll_cons, Item.encode, Item.encode, List.singleton_append,
        List.append_assoc, List.cons_append, drain_item hframe, hothers]
      rfl
  | case4 sent items hlater ih =>
      have hsafe' : ∀ other, .frame other ∈ items → WireSafe other :=
        fun other hmem => hsafe other (List.mem_cons_of_mem _ hmem)
      rw [encodeAll_cons, List.length_append, Item.encode] at hsize
      have hothers := ih hsafe' (by omega)
      have hframe := decode_encodeFrame (hsafe sent List.mem_cons_self) (by omega)
        (encodeAll items ++ rest)
      rw [skipEol_encodeAll_append hsafe' hlater hrest] at hframe
      rw [encodeAll_cons, Item.encode, List.append_assoc, drain_item hframe, hothers]
      rfl

/--
A stream of items that are safe to write comes back whole, in order and with
nothing left over.  The length of a buffer is a 64-bit word.
-/
theorem drain_encodeAll {items : List Item}
    (hsafe : ∀ sent, .frame sent ∈ items → WireSafe sent)
    (hsize : (encodeAll items).length < Numeral.word64) :
    drain (encodeAll items) = ⟨receivedAll items, [], none⟩ := by
  have hdrain := drain_encodeAll_append hsafe hsize (rfl : skipEol [] = [])
  rwa [List.append_nil, drain_idle (rfl : Item.decode [] = .idle), List.append_nil] at hdrain

def greetingAndMessage : List Item :=
  [.heartbeat, .frame ⟨"CONNECT", [("host", "a:b")], []⟩, .heartbeat,
    .frame ⟨"SEND", [("k:\n\\", "\r")], [0x00, 0xFF]⟩, .heartbeat, .heartbeat]

theorem wireSafe_greetingAndMessage :
    ∀ sent, .frame sent ∈ greetingAndMessage → WireSafe sent := by
  have hgreeting : WireSafe ⟨"CONNECT", [("host", "a:b")], []⟩ :=
    { command_ne_empty := by decide
      lf_notMem_command := by decide
      head_command_ne_cr := by decide
      getLast_command_ne_cr := by decide
      verbatim := fun _ header hmem => by
        rw [List.mem_singleton.mp hmem]
        exact ⟨by decide, by decide, by decide, by decide⟩
      declared := fun header hfind => by
        rw [show List.find? _ _ = none by decide +kernel] at hfind
        simp at hfind
      bounded := fun _ => by decide }
  have hmessage : WireSafe ⟨"SEND", [("k:\n\\", "\r")], [0x00, 0xFF]⟩ :=
    { command_ne_empty := by decide
      lf_notMem_command := by decide
      head_command_ne_cr := by decide
      getLast_command_ne_cr := by decide
      verbatim := fun h => absurd h (by decide)
      declared := fun header hfind => by
        rw [show List.find? _ _ = none by decide +kernel] at hfind
        simp at hfind
      bounded := fun _ => by decide }
  intro sent hmem
  simp only [greetingAndMessage, List.mem_cons, Item.frame.injEq, List.not_mem_nil, or_false,
    reduceCtorEq, false_or] at hmem
  rcases hmem with rfl | rfl
  · exact hgreeting
  · exact hmessage

theorem drain_greetingAndMessage :
    (∀ sent, .frame sent ∈ greetingAndMessage → WireSafe sent) ∧
      (encodeAll greetingAndMessage).length < Numeral.word64 ∧
      drain (encodeAll greetingAndMessage) =
        ⟨[.heartbeat, .frame ⟨"CONNECT", [("host", "a:b")], []⟩,
          .frame ⟨"SEND", [("k:\n\\", "\r"), ("content-length", "2")], [0x00, 0xFF]⟩,
          .heartbeat],
          [], none⟩ := by
  have hsize : (encodeAll greetingAndMessage).length < Numeral.word64 := by
    decide +kernel
  have hreceived : receivedAll greetingAndMessage =
      [.heartbeat, .frame ⟨"CONNECT", [("host", "a:b")], []⟩,
        .frame ⟨"SEND", [("k:\n\\", "\r"), ("content-length", "2")], [0x00, 0xFF]⟩,
        .heartbeat] := by
    decide +kernel
  refine ⟨wireSafe_greetingAndMessage, hsize, ?_⟩
  rw [drain_encodeAll wireSafe_greetingAndMessage hsize, hreceived]

end Stomp.Wire

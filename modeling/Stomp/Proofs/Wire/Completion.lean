import Stomp.Proofs.Wire.RoundTrip
import Stomp.Proofs.Wire.Stability
import Stomp.Wire.Codec

/-!
# Completing messages

With completion, a message whose last frame lacks its NUL gives the same items as
the whole one, and leaves nothing for the message after it
(`Codec.intakes_of_packets`).
-/

namespace Stomp.Wire

open Bytes

/-! ## A frame without its NUL -/

/-- A frame as it is written, but for its NUL. -/
def encodeUnended (frame : Frame) : Bytes := encodeHead frame ++ frame.body

theorem encodeUnended_append (frame : Frame) : encodeUnended frame ++ [nul] = encodeFrame frame :=
  rfl

theorem exists_encodeUnended {frame : Frame} (h : WireSafe frame) :
    ∃ b rest, encodeUnended frame = b :: rest ∧ isEol b = false := by
  obtain ⟨b, rest, hhead, hb⟩ := h.legible.exists_encodeHead
  exact ⟨b, rest ++ frame.body, by rw [encodeUnended, hhead, List.cons_append], hb⟩

theorem skipEol_encodeUnended {frame : Frame} (h : WireSafe frame) :
    skipEol (encodeUnended frame) = encodeUnended frame := by
  obtain ⟨b, rest, hbytes, hb⟩ := exists_encodeUnended h
  rw [hbytes, skipEol_eq_self hb]

theorem getLast?_of_afterEol? {input : Bytes} (h : afterEol? input = some []) :
    input.getLast? = some lf := by
  unfold afterEol? at h
  split at h
  · rw [Option.some.inj h]
    rfl
  · rw [Option.some.inj h]
    rfl
  · simp at h

theorem skipEol_nul_ne_nil (input : Bytes) : skipEol (input ++ [nul]) ≠ [] := by
  intro hempty
  cases heol : afterEol? (input ++ [nul]) with
  | none => simp [skipEol, heol] at hempty
  | some rest =>
      rw [skipEol, heol, Option.getD_some] at hempty
      rw [hempty] at heol
      have hlast := getLast?_of_afterEol? heol
      rw [List.getLast?_concat] at hlast
      exact absurd (Option.some.inj hlast) (by decide)

theorem exists_back_of_cut {frame : Frame} {front last : Bytes}
    (hcut : front ++ last = encodeFrame frame) (hlast : last ≠ []) :
    ∃ back, last = back ++ [nul] := by
  have hend := congrArg List.getLast? hcut
  rw [encodeFrame, List.getLast?_concat, List.getLast?_append,
    List.getLast?_eq_some_getLast hlast, Option.some_or, ← List.getLast?_eq_some_getLast] at hend
  exact List.getLast?_eq_some_iff.mp hend

theorem decode_front {frame : Frame} (h : WireSafe frame)
    (hsize : (encodeFrame frame).length < Numeral.word64) {front last : Bytes}
    (hcut : front ++ last = encodeFrame frame) (hlast : last ≠ []) :
    Item.decode front = .idle := by
  obtain ⟨back, rfl⟩ := exists_back_of_cut hcut hlast
  have hwhole := decode_encodeFrame h hsize []
  have hext := Item.decode_append front (back ++ [nul])
  rw [List.append_nil] at hwhole
  rw [hcut, hwhole] at hext
  generalize Item.decode front = decoding at hext ⊢
  -- whatever else it could be, the NUL would be left over
  cases hext with
  | idle => rfl
  | @frame _ rest _ hleft =>
      rw [← List.append_assoc] at hleft
      rcases hleft with hleft | hleft
      · exact absurd hleft.symm (by simp [skipEol, afterEol?])
      · exact absurd hleft.symm (skipEol_nul_ne_nil _)

theorem decode_encodeUnended {frame : Frame} (h : WireSafe frame)
    (hsize : (encodeFrame frame).length < Numeral.word64) :
    Item.decode (encodeUnended frame) = .idle :=
  decode_front h hsize (encodeUnended_append frame) (List.cons_ne_nil _ _)

theorem isCompletable_encodeUnended {frame : Frame} (h : WireSafe frame)
    (hsize : (encodeFrame frame).length < Numeral.word64) :
    isCompletable (encodeUnended frame) = true := by
  obtain ⟨body, -, hread⟩ := read_encodeFrame h hsize []
  obtain ⟨b, rest, hbytes, hb⟩ := exists_encodeUnended h
  have hall : (encodeUnended frame).all isEol = false := by
    rw [hbytes, List.all_cons, hb, Bool.false_and]
  have hnothing : skipEol [] = [] := rfl
  rw [List.append_nil, hnothing] at hread
  rw [isCompletable, hall, encodeUnended_append, hread]
  rfl

/-! ## Items before an end -/

theorem receivedAll_append (items : List Item) (sent : Frame) :
    receivedAll (items ++ [.frame sent]) = receivedAll items ++ [.frame (received sent)] := by
  fun_induction receivedAll items with
  | case1 => rfl
  | case2 items ih => simp only [List.cons_append, receivedAll, ih]
  | case3 first items ih => simp only [List.cons_append, receivedAll, ih]
  | case4 first items hlater ih =>
      cases items with
      | nil => rfl
      | cons item items =>
          cases item with
          | heartbeat => exact absurd rfl (hlater items)
          | frame other => exact congrArg (.frame (received first) :: ·) ih

/-! ## Messages -/

/-- A message of whole items, or one of which the last is a frame without its NUL. -/
structure Packet where
  items : List Item
  isEnded : Bool
  ends_in_frame : isEnded = false → ∃ front last, items = front ++ [.frame last]

def Packet.bytes (packet : Packet) : Bytes :=
  if packet.isEnded then encodeAll packet.items else (encodeAll packet.items).dropLast

theorem encodeAll_append (front : List Item) (last : Frame) :
    encodeAll (front ++ [.frame last]) = encodeAll front ++ encodeFrame last := by
  simp [encodeAll, Item.encode]

theorem dropLast_encodeAll (front : List Item) (last : Frame) :
    (encodeAll (front ++ [.frame last])).dropLast = encodeAll front ++ encodeUnended last := by
  rw [encodeAll_append, ← encodeUnended_append, ← List.append_assoc, List.dropLast_concat]

namespace Codec

variable {codec : Codec} {items : List Item}

/-- What comes of each message of a stream, with the bytes that it leaves. -/
def intakes (codec : Codec) (buffer : Bytes) : List Bytes → List Intake
  | [] => []
  | message :: messages =>
      let intake := codec.decodeMessage buffer message
      intake :: codec.intakes intake.buffer messages

theorem decodeMessage_encodeAll (hsafe : ∀ sent, .frame sent ∈ items → WireSafe sent)
    (hsize : (encodeAll items).length < Numeral.word64) :
    codec.decodeMessage [] (encodeAll items) = ⟨.ok (receivedAll items), []⟩ := by
  have hnothing : skipEol [] = [] := rfl
  have hdrain := drain_encodeAll_append hsafe hsize hnothing
  rw [List.append_nil, drain_idle (rfl : Item.decode [] = .idle), List.append_nil] at hdrain
  have hempty : isCompletable [] = false := rfl
  simp [decodeMessage, hdrain, hempty, Drained.intake]

theorem decodeMessage_unended (hon : codec.completes = true) {front : List Item} {last : Frame}
    (hsafe : ∀ sent, .frame sent ∈ front ++ [.frame last] → WireSafe sent)
    (hsize : (encodeAll (front ++ [.frame last])).length < Numeral.word64) :
    codec.decodeMessage [] (encodeAll front ++ encodeUnended last) =
      ⟨.ok (receivedAll (front ++ [.frame last])), []⟩ := by
  have hlast : WireSafe last := hsafe last (by simp)
  have hfront : ∀ sent, .frame sent ∈ front → WireSafe sent :=
    fun sent hmem => hsafe sent (List.mem_append_left _ hmem)
  rw [encodeAll_append, List.length_append] at hsize
  have hdrain := drain_encodeAll_append hfront (by omega) (skipEol_encodeUnended hlast)
  rw [drain_idle (decode_encodeUnended hlast (by omega)), List.append_nil] at hdrain
  have hwhole := decode_encodeFrame hlast (by omega) []
  have hnothing : skipEol [] = [] := rfl
  rw [List.append_nil, hnothing] at hwhole
  have hcompleted : drain (encodeFrame last) = ⟨[.frame (received last)], [], none⟩ := by
    rw [drain_item hwhole, drain_idle (rfl : Item.decode [] = .idle)]
  simp [decodeMessage, hdrain, hon, isCompletable_encodeUnended hlast (by omega),
    encodeUnended_append, hcompleted, Drained.intake, receivedAll_append]

theorem decodeMessage_bytes (hon : codec.completes = true) {packet : Packet}
    (hsafe : ∀ sent, .frame sent ∈ packet.items → WireSafe sent)
    (hsize : (encodeAll packet.items).length < Numeral.word64) :
    codec.decodeMessage [] packet.bytes = ⟨.ok (receivedAll packet.items), []⟩ := by
  cases hended : packet.isEnded with
  | true =>
      rw [Packet.bytes, hended, if_pos rfl]
      exact decodeMessage_encodeAll hsafe hsize
  | false =>
      obtain ⟨front, last, hitems⟩ := packet.ends_in_frame hended
      rw [hitems] at hsafe hsize
      rw [Packet.bytes, hended, if_neg Bool.false_ne_true, hitems, dropLast_encodeAll]
      exact decodeMessage_unended hon hsafe hsize

/--
With completion each message of a stream gives what it gives as a whole, whether or not
its last frame has its NUL.  That is every item of it, never a fault, and nothing is
left for the next message.
-/
theorem intakes_of_packets (hon : codec.completes = true) (packets : List Packet)
    (hsafe : ∀ packet ∈ packets, ∀ sent, .frame sent ∈ packet.items → WireSafe sent)
    (hsize : ∀ packet ∈ packets, (encodeAll packet.items).length < Numeral.word64) :
    codec.intakes [] (packets.map Packet.bytes) =
        packets.map (fun packet => codec.decodeMessage [] (encodeAll packet.items)) ∧
      ∀ packet ∈ packets,
        codec.decodeMessage [] (encodeAll packet.items) = ⟨.ok (receivedAll packet.items), []⟩ := by
  refine ⟨?_, fun packet hmem => decodeMessage_encodeAll (hsafe packet hmem) (hsize packet hmem)⟩
  induction packets with
  | nil => rfl
  | cons packet packets ih =>
      have hothers := ih (fun other hmem => hsafe other (List.mem_cons_of_mem _ hmem))
        (fun other hmem => hsize other (List.mem_cons_of_mem _ hmem))
      have hwhole : codec.decodeMessage [] (encodeAll packet.items) =
          ⟨.ok (receivedAll packet.items), []⟩ :=
        decodeMessage_encodeAll (hsafe packet List.mem_cons_self) (hsize packet List.mem_cons_self)
      have hbytes := decodeMessage_bytes hon (hsafe packet List.mem_cons_self)
        (hsize packet List.mem_cons_self)
      rw [List.map_cons, List.map_cons, intakes, hbytes, hwhole, ← hothers]

def lineFrame : Frame := ⟨"MESSAGE", [("id", "1")], [0x68, 0x69, cr, lf]⟩

theorem wireSafe_lineFrame : WireSafe lineFrame where
  command_ne_empty := by decide
  lf_notMem_command := by decide
  head_command_ne_cr := by decide
  getLast_command_ne_cr := by decide
  verbatim := fun h => absurd h (by decide)
  declared := fun header hfind => by
    rw [show List.find? _ _ = none by decide +kernel] at hfind
    simp at hfind
  bounded := fun _ => by decide

def mixedPackets : List Packet :=
  [⟨[.heartbeat, .frame lineFrame], false, fun _ => ⟨[.heartbeat], lineFrame, rfl⟩⟩,
    ⟨[.heartbeat], true, fun h => absurd h Bool.noConfusion⟩,
    ⟨greetingAndMessage.take 4, false, fun _ => ⟨greetingAndMessage.take 3, _, rfl⟩⟩,
    ⟨greetingAndMessage, true, fun h => absurd h Bool.noConfusion⟩]

theorem wireSafe_mixedPackets :
    ∀ packet ∈ mixedPackets, ∀ sent, .frame sent ∈ packet.items → WireSafe sent := by
  intro packet hpacket sent hsent
  simp only [mixedPackets, List.mem_cons, List.not_mem_nil, or_false] at hpacket
  rcases hpacket with rfl | rfl | rfl | rfl
  · simp only [List.mem_cons, reduceCtorEq, Item.frame.injEq, List.not_mem_nil, or_false,
      false_or] at hsent
    rw [hsent]
    exact wireSafe_lineFrame
  · simp at hsent
  · exact wireSafe_greetingAndMessage sent (List.mem_of_mem_take hsent)
  · exact wireSafe_greetingAndMessage sent hsent

theorem intakes_of_mixedPackets :
    (∀ packet ∈ mixedPackets, ∀ sent, .frame sent ∈ packet.items → WireSafe sent) ∧
      (∀ packet ∈ mixedPackets, (encodeAll packet.items).length < Numeral.word64) ∧
      let greeting : Frame := ⟨"CONNECT", [("host", "a:b")], []⟩
      let message : Frame :=
        ⟨"SEND", [("k:\n\\", "\r"), ("content-length", "2")], [0x00, 0xFF]⟩
      intakes ⟨true⟩ [] (mixedPackets.map Packet.bytes) =
        [⟨.ok [.heartbeat, .frame lineFrame], []⟩,
          ⟨.ok [.heartbeat], []⟩,
          ⟨.ok [.heartbeat, .frame greeting, .frame message], []⟩,
          ⟨.ok [.heartbeat, .frame greeting, .frame message, .heartbeat], []⟩] := by
  have hsize : ∀ packet ∈ mixedPackets, (encodeAll packet.items).length < Numeral.word64 := by
    decide +kernel
  have hreceived : mixedPackets.map (receivedAll ·.items) =
      [[.heartbeat, .frame lineFrame], [.heartbeat],
        [.heartbeat, .frame ⟨"CONNECT", [("host", "a:b")], []⟩,
          .frame ⟨"SEND", [("k:\n\\", "\r"), ("content-length", "2")], [0x00, 0xFF]⟩],
        [.heartbeat, .frame ⟨"CONNECT", [("host", "a:b")], []⟩,
          .frame ⟨"SEND", [("k:\n\\", "\r"), ("content-length", "2")], [0x00, 0xFF]⟩,
          .heartbeat]] := by
    decide +kernel
  obtain ⟨hintakes, heach⟩ :=
    intakes_of_packets (rfl : Codec.completes ⟨true⟩ = true) mixedPackets wireSafe_mixedPackets
      hsize
  have hresults :
      mixedPackets.map (fun packet => decodeMessage ⟨true⟩ [] (encodeAll packet.items)) =
        (mixedPackets.map (receivedAll ·.items)).map fun items => ⟨.ok items, []⟩ := by
    rw [List.map_map]
    exact List.map_congr_left heach
  refine ⟨wireSafe_mixedPackets, hsize, ?_⟩
  rw [hintakes, hresults, hreceived]
  rfl

end Codec

end Stomp.Wire

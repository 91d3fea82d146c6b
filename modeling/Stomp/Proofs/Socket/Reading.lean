import Stomp.Proofs.Wire.Losses
import Stomp.Socket.Transport

/-!
# What a transport reports

A connection that has just opened reports what its messages decode to, item by item,
then the fault that stopped decoding or what ended the connection.  Frames before a
malformed one are reported unless they were taken from the same message
(`Transport.reports_before_fault`).  As long as nothing is reported, all that arrives is
part of an item that is not complete (`Transport.nextEvent_of_event_eq_none`).
-/

namespace Stomp.Socket.Transport

open Wire

variable {transport : Transport} {inbound rest : List Received} {events : List Event}
  {last : Option Event}

/-! ## Reports -/

/-- One after another a transport reports `events`, and then `last` or nothing more. -/
inductive Reports : Transport → List Received → List Event → Option Event → Prop
  | last {transport : Transport} {inbound : List Received} {last : Option Event}
      (hlast : (transport.nextEvent inbound).event = last) : Reports transport inbound [] last
  | event {transport : Transport} {inbound : List Received} {event : Event}
      {events : List Event} {last : Option Event}
      (hevent : (transport.nextEvent inbound).event = some event)
      (hmore : Reports (transport.nextEvent inbound).transport
        (transport.nextEvent inbound).rest events last) :
      Reports transport inbound (event :: events) last

theorem Reports.of_nextEvent_eq {other : Transport}
    (h : other.Reports rest events last)
    (heq : transport.nextEvent inbound = other.nextEvent rest) :
    transport.Reports inbound events last := by
  cases h with
  | last hlast =>
      rw [← heq] at hlast
      exact .last hlast
  | event hevent hmore =>
      rw [← heq] at hevent hmore
      exact .event hevent hmore

theorem Reports.pending (h : transport.Reports inbound events last)
    (hpending : transport.pending = []) (items : List Item) :
    { transport with pending := items }.Reports inbound (items.map Event.item ++ events) last := by
  induction items with
  | nil =>
      have hsame : { transport with pending := [] } = transport := by rw [← hpending]
      exact hsame ▸ h
  | cons item items ih => exact .event rfl ih

/-! ## Payloads and ends -/

/-- The payloads that come before the connection ends. -/
def payloads : List Received → List Bytes
  | [] => []
  | .failed _ :: _ => []
  | .ended :: _ => []
  | .message message :: rest =>
      match content message with
      | .payload payload => payload :: payloads rest
      | .control => payloads rest
      | .close _ => []

def ending? : List Received → Option Event
  | [] => none
  | .failed reason :: _ => some (.failed (.transport reason))
  | .ended :: _ => some (.closed (CloseInfo.remote none ""))
  | .message message :: rest =>
      match content message with
      | .close close => some (.closed close)
      | _ => ending? rest

section Open

variable (hopen : transport.isOpen = true) (hpending : transport.pending = [])

include hopen hpending

theorem nextEvent_eq_read (inbound : List Received) :
    transport.nextEvent inbound = transport.read inbound := by
  rw [nextEvent, hpending]
  exact if_pos hopen

theorem nextEvent_control {message : Message} (h : content message = .control)
    (rest : List Received) :
    transport.nextEvent (.message message :: rest) = transport.nextEvent rest := by
  rw [nextEvent_eq_read hopen hpending, nextEvent_eq_read hopen hpending, read, h]

theorem nextEvent_fault {message : Message} {payload left : Bytes} {fault : DecodeFault}
    (h : content message = .payload payload)
    (hintake : transport.codec.decodeMessage transport.buffer payload = ⟨.error fault, left⟩)
    (rest : List Received) :
    (transport.nextEvent (.message message :: rest)).event =
      some (.failed (.io fault.message)) := by
  rw [nextEvent_eq_read hopen hpending, read, h]
  simp only [feed, hintake]

theorem nextEvent_payload {message : Message} {payload left : Bytes} {items : List Item}
    (h : content message = .payload payload)
    (hintake : transport.codec.decodeMessage transport.buffer payload = ⟨.ok items, left⟩)
    (rest : List Received) :
    transport.nextEvent (.message message :: rest) =
      { transport with buffer := left, pending := items }.nextEvent rest := by
  rw [nextEvent_eq_read hopen hpending, read, h]
  simp only [feed, hintake, hpending, List.nil_append]
  cases items with
  | nil => exact (if_pos hopen).symm
  | cons item items => rfl

end Open

/-! ## Whole connections -/

/-- What comes after the items: the fault that stopped decoding, or else the end. -/
def final? (stream : Stream) (inbound : List Received) : Option Event :=
  (stream.fault.map fun failed => .failed (.io failed.2.message)).or (ending? inbound)

theorem reports_decoded (hopen : transport.isOpen = true) (hpending : transport.pending = [])
    (index : Nat) (inbound : List Received) :
    transport.Reports inbound
      ((transport.codec.decodeMessages index transport.buffer (payloads inbound)).items.map
        Event.item)
      (final? (transport.codec.decodeMessages index transport.buffer (payloads inbound))
        inbound) := by
  induction inbound generalizing transport index with
  | nil => exact .last (congrArg Reading.event (nextEvent_eq_read hopen hpending []))
  | cons received rest ih =>
      cases received with
      | failed reason =>
          exact .last (congrArg Reading.event (nextEvent_eq_read hopen hpending _))
      | ended => exact .last (congrArg Reading.event (nextEvent_eq_read hopen hpending _))
      | message message =>
          cases hcontent : content message with
          | control =>
              rw [payloads, final?, ending?, hcontent]
              exact (ih hopen hpending index).of_nextEvent_eq
                (nextEvent_control hopen hpending hcontent rest)
          | close close =>
              rw [payloads, final?, ending?, hcontent]
              exact .last (by rw [nextEvent_eq_read hopen hpending, read, hcontent]; rfl)
          | payload payload =>
              rw [payloads, final?, ending?, hcontent]
              simp only
              generalize hintake :
                transport.codec.decodeMessage transport.buffer payload = intake
              obtain ⟨result, left⟩ := intake
              cases result with
              | error fault =>
                  rw [Codec.decodeMessages, hintake]
                  exact .last (nextEvent_fault hopen hpending hcontent hintake rest)
              | ok items =>
                  rw [Codec.decodeMessages, hintake]
                  simp only [List.map_append]
                  let left := { transport with buffer := left }
                  have hmore := @ih left hopen hpending (index + 1)
                  exact (hmore.pending hpending items).of_nextEvent_eq
                    (nextEvent_payload hopen hpending hcontent hintake rest)

/--
A connection over which a peer sends anything reports what its messages decode to and
fails where their stream does.  Of the frames before the fault those are missing that
were taken from the message that failed, and no others: all are reported if, and only if,
that message brought none before its fault.
-/
theorem reports_before_fault (closed : Transport) (inbound : List Received) :
    let codec := closed.codec
    let returned := codec.decodeMessages 0 [] (payloads inbound)
    let lost := codec.lost [] (payloads inbound)
    let stream := drain (codec.taken [] (payloads inbound))
    (closed.connect (.ok ())).1.Reports inbound (returned.items.map Event.item)
        (final? returned inbound) ∧
      returned.fault.map Prod.snd = stream.fault ∧
      framesOf returned.items ++ framesOf lost = framesOf stream.items ∧
      (framesOf returned.items = framesOf stream.items ↔ framesOf lost = []) ∧
      (returned.fault = none → lost = []) ∧
      (codec.completes = false →
        codec.taken [] (payloads inbound) = (payloads inbound).flatten) := by
  intro codec returned lost stream
  have hidle : Item.decode [] = .idle := rfl
  obtain ⟨hfault, hframes⟩ := codec.decodeMessages_taken 0 (payloads inbound) hidle
  have hall : framesOf returned.items = framesOf stream.items ↔ framesOf lost = [] := by
    have hframes : framesOf returned.items ++ framesOf lost = framesOf stream.items := hframes
    rw [← hframes]
    exact List.self_eq_append_right
  exact ⟨reports_decoded rfl rfl 0 inbound, hfault, hframes, hall, Codec.lost_of_fault_eq_none,
    fun hoff => Codec.taken_of_off hoff [] _⟩

def goodThenBad : List Received :=
  [.message (.text "MESSAGE\nid:1\n\none\x00"), .message (.text "MESSAGE\nbad\n\n\x00")]

def goodWithBad : List Received :=
  [.message (.text "MESSAGE\nid:1\n\none\x00MESSAGE\nbad\n\n\x00")]

theorem reports_before_fault_shared :
    let closed : Transport := { codec := {}, subprotocols := [] }
    let good : Item := .frame ⟨"MESSAGE", [("id", "1")], Utf8.encode "one"⟩
    let failure : Event := .failed (.io "parse error: malformed header line: \"bad\"")
    (closed.connect (.ok ())).1.Reports goodThenBad [.item good] (some failure) ∧
      (closed.connect (.ok ())).1.Reports goodWithBad [] (some failure) := by
  intro closed good failure
  have halone := (reports_before_fault closed goodThenBad).1
  have hshared := (reports_before_fault closed goodWithBad).1
  have hgood : (closed.codec.decodeMessages 0 [] (payloads goodThenBad)).items = [good] ∧
      final? (closed.codec.decodeMessages 0 [] (payloads goodThenBad)) goodThenBad =
        some failure := by decide +kernel
  have hnone : (closed.codec.decodeMessages 0 [] (payloads goodWithBad)).items = [] ∧
      final? (closed.codec.decodeMessages 0 [] (payloads goodWithBad)) goodWithBad =
        some failure := by decide +kernel
  rw [hgood.1, hgood.2] at halone
  rw [hnone.1, hnone.2] at hshared
  exact ⟨halone, hshared⟩

/-! ## Nothing to report -/

def carried : Received → Bytes
  | .message message =>
      match content message with
      | .payload payload => payload
      | _ => []
  | _ => []

theorem read_of_event_eq_none (h : (transport.read inbound).event = none)
    (hpending : transport.pending = []) :
    transport.read inbound =
      ⟨none, { transport with buffer := transport.buffer ++ inbound.flatMap carried }, []⟩ := by
  induction inbound generalizing transport with
  | nil => rw [List.flatMap_nil, List.append_nil, read]
  | cons received rest ih =>
      cases received with
      | failed reason => exact absurd h (Option.some_ne_none _)
      | ended => exact absurd h (Option.some_ne_none _)
      | message message =>
          rw [List.flatMap_cons, carried]
          rw [read] at h ⊢
          cases hcontent : content message with
          | control =>
              rw [hcontent] at h
              exact ih h hpending
          | close close =>
              rw [hcontent] at h
              exact absurd h (Option.some_ne_none _)
          | payload payload =>
              rw [hcontent] at h
              simp only [feed, hpending, List.nil_append] at h ⊢
              generalize hintake :
                transport.codec.decodeMessage transport.buffer payload = intake at h ⊢
              obtain ⟨result, left⟩ := intake
              cases result with
              | error fault => exact absurd h (Option.some_ne_none _)
              | ok items =>
                  cases items with
                  | cons item items => exact absurd h (Option.some_ne_none _)
                  | nil =>
                      obtain rfl := Codec.decodeMessage_eq_nothing hintake
                      have hmore := ih h rfl
                      rw [← List.append_assoc]
                      exact hmore

theorem nextEvent_of_event_eq_none (h : (transport.nextEvent inbound).event = none) :
    ∃ seen, inbound = seen ++ (transport.nextEvent inbound).rest ∧
      (transport.nextEvent inbound).transport =
        { transport with buffer := transport.buffer ++ seen.flatMap carried } := by
  cases hpending : transport.pending with
  | cons item pending =>
      rw [nextEvent, hpending] at h
      exact absurd h (Option.some_ne_none _)
  | nil =>
      by_cases hopen : transport.isOpen = true
      · rw [nextEvent_eq_read hopen hpending] at h ⊢
        rw [read_of_event_eq_none h hpending]
        exact ⟨inbound, (List.append_nil _).symm, hpending ▸ rfl⟩
      · rw [nextEvent, hpending]
        simp only [if_neg hopen]
        exact ⟨[], rfl, by rw [List.flatMap_nil, List.append_nil, ← hpending]⟩

theorem decode_buffer_read (hidle : Item.decode transport.buffer = .idle) :
    Item.decode (transport.read inbound).transport.buffer = .idle := by
  induction inbound generalizing transport with
  | nil => exact hidle
  | cons received rest ih =>
      cases received with
      | failed reason => exact hidle
      | ended => exact hidle
      | message message =>
          rw [read]
          cases content message with
          | control => exact ih hidle
          | close close => exact hidle
          | payload payload =>
              simp only [feed]
              generalize hintake :
                transport.codec.decodeMessage transport.buffer payload = intake
              obtain ⟨result, left⟩ := intake
              cases result with
              | error fault => rfl
              | ok items =>
                  have hleft := Codec.decode_of_decodeMessage hintake
                  simp only
                  split
                  · exact hleft
                  · exact ih hleft

theorem decode_buffer_nextEvent (hidle : Item.decode transport.buffer = .idle) :
    Item.decode (transport.nextEvent inbound).transport.buffer = .idle := by
  rw [nextEvent]
  split
  · exact hidle
  · split
    · exact decode_buffer_read hidle
    · exact hidle

end Stomp.Socket.Transport

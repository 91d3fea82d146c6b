import Stomp.Proofs.Socket.Reading

/-!
# A transport and its connections

A transport is connected, asked for events and closed in any order, and what is sent to it
arrives whenever it likes.  On each connection it returns, in order, what the messages read
on that connection come to; it reads on only when all of that was returned, and nothing of
a connection outlasts the next connect or a close (`Endpoint.returns_what_it_reads`).
-/

namespace Stomp.Socket

open Wire Transport

/-! ## What messages come to -/

def digest (codec : Codec) (buffer : Bytes) : Received → List Event × Bytes
  | .failed reason => ([.failed (.transport reason)], buffer)
  | .ended => ([.closed (CloseInfo.remote none "")], buffer)
  | .message message =>
      match content message with
      | .control => ([], buffer)
      | .close close => ([.closed close], buffer)
      | .payload payload =>
          match codec.decodeMessage buffer payload with
          | ⟨.ok items, left⟩ => (items.map .item, left)
          | ⟨.error fault, _⟩ => ([.failed (.io fault.message)], [])

def eventsOf (codec : Codec) (buffer : Bytes) : List Received → List Event
  | [] => []
  | received :: rest =>
      (digest codec buffer received).1 ++ eventsOf codec (digest codec buffer received).2 rest

def bufferAfter (codec : Codec) (buffer : Bytes) : List Received → Bytes
  | [] => buffer
  | received :: rest => bufferAfter codec (digest codec buffer received).2 rest

section Digest

variable {codec : Codec} {buffer : Bytes} {transport : Transport}

theorem eventsOf_append (inbound more : List Received) :
    eventsOf codec buffer (inbound ++ more) =
      eventsOf codec buffer inbound ++ eventsOf codec (bufferAfter codec buffer inbound) more := by
  induction inbound generalizing buffer with
  | nil => rfl
  | cons received rest ih => simp [eventsOf, bufferAfter, ih]

theorem bufferAfter_snoc (inbound : List Received) (received : Received) :
    bufferAfter codec buffer (inbound ++ [received]) =
      (digest codec (bufferAfter codec buffer inbound) received).2 := by
  induction inbound generalizing buffer with
  | nil => rfl
  | cons first rest ih => simp [bufferAfter, ih]

theorem read_cons (hpending : transport.pending = []) (received : Received)
    (rest : List Received) :
    ((digest transport.codec transport.buffer received).1 = [] ∧
        transport.read (received :: rest) =
          { transport with buffer := (digest transport.codec transport.buffer received).2 }.read
            rest) ∨
      ∃ event next, transport.read (received :: rest) = ⟨some event, next, rest⟩ ∧
        next.codec = transport.codec ∧
        digest transport.codec transport.buffer received =
          (event :: next.pending.map Event.item, next.buffer) ∧
        ((∀ item, event ≠ .item item) → next.pending = []) := by
  cases received with
  | failed reason => exact .inr ⟨_, _, rfl, rfl, by simp [digest, hpending], fun _ => hpending⟩
  | ended => exact .inr ⟨_, _, rfl, rfl, by simp [digest, hpending], fun _ => hpending⟩
  | message message =>
      rw [Transport.read, digest]
      cases content message with
      | control => exact .inl ⟨rfl, rfl⟩
      | close close => exact .inr ⟨_, _, rfl, rfl, by simp [hpending], fun _ => hpending⟩
      | payload payload =>
          simp only [feed]
          rcases transport.codec.decodeMessage transport.buffer payload with ⟨fault | items, left⟩
          · exact .inr ⟨_, _, rfl, rfl, by simp [hpending], fun _ => hpending⟩
          · rw [hpending]
            cases items with
            | nil => exact .inl ⟨rfl, by simp only [List.append_nil]⟩
            | cons item items =>
                exact .inr ⟨_, _, rfl, rfl, rfl, fun hnot => absurd rfl (hnot item)⟩

theorem nextEvent_cons {item : Item} {pending : List Item}
    (hpending : transport.pending = item :: pending) (inbound : List Received) :
    transport.nextEvent inbound = ⟨some (.item item), { transport with pending }, inbound⟩ := by
  rw [nextEvent, hpending]

theorem nextEvent_of_not_isOpen (hpending : transport.pending = [])
    (hopen : transport.isOpen = false) (inbound : List Received) :
    transport.nextEvent inbound = ⟨none, transport, inbound⟩ := by
  rw [nextEvent, hpending]
  exact if_neg (Bool.eq_false_iff.mp hopen)

theorem codec_read (hpending : transport.pending = []) (inbound : List Received) :
    (transport.read inbound).transport.codec = transport.codec := by
  induction inbound generalizing transport with
  | nil => rfl
  | cons received rest ih =>
      rcases read_cons hpending received rest with ⟨-, heq⟩ | ⟨event, next, heq, hcodec, -⟩
      · rw [heq]
        exact ih hpending
      · rw [heq]
        exact hcodec

end Digest

/-! ## Endpoints -/

/-- A transport with what arrived on its connection and was not read yet. -/
structure Endpoint where
  transport : Transport
  unread : List Received := []

namespace Endpoint

inductive Action where
  | connect (opened : Except String Unit)
  | close
  | arrive (received : Received)
  /-- Ask the transport for its next event. -/
  | next
  deriving Repr

inductive Occurrence where
  | connected (opened : Except String Unit)
  | closed
  | read (received : Received)
  | returned (event : Event)
  /-- There was nothing to return, so that the call goes on waiting. -/
  | waited
  deriving Repr

namespace Occurrence

def read? : Occurrence → Option Received
  | .read received => some received
  | _ => none

def returned? : Occurrence → Option Event
  | .returned event => some event
  | _ => none

def ofEvent? : Option Event → Occurrence
  | some event => .returned event
  | none => .waited

end Occurrence

def arrivals (actions : List Action) : List Received :=
  actions.filterMap fun
    | .arrive received => some received
    | _ => none

def reads (record : List Occurrence) : List Received := record.filterMap Occurrence.read?

def returns (record : List Occurrence) : List Event := record.filterMap Occurrence.returned?

theorem reads_snoc (record : List Occurrence) (last : Occurrence) :
    reads (record ++ [last]) = reads record ++ last.read?.toList := by
  rw [reads, List.filterMap_append, reads, List.filterMap_cons, List.filterMap_nil]
  cases last.read? <;> rfl

theorem returns_snoc (record : List Occurrence) (last : Occurrence) :
    returns (record ++ [last]) = returns record ++ last.returned?.toList := by
  rw [returns, List.filterMap_append, returns, List.filterMap_cons, List.filterMap_nil]
  cases last.returned? <;> rfl

/-- What an action does; a connect and a close drop what was not read yet. -/
def step (endpoint : Endpoint) : Action → Endpoint × List Occurrence
  | .connect opened => (⟨(endpoint.transport.connect opened).1, []⟩, [.connected opened])
  | .close => (⟨endpoint.transport.close, []⟩, [.closed])
  | .arrive received => ({ endpoint with unread := endpoint.unread ++ [received] }, [])
  | .next =>
      let reading := endpoint.transport.nextEvent endpoint.unread
      let count := endpoint.unread.length - reading.rest.length
      (⟨reading.transport, reading.rest⟩,
        (endpoint.unread.take count).map .read ++ [.ofEvent? reading.event])

def run (endpoint : Endpoint) : List Action → Endpoint × List Occurrence
  | [] => (endpoint, [])
  | action :: actions =>
      let (next, made) := endpoint.step action
      let (last, more) := next.run actions
      (last, made ++ more)

variable {endpoint : Endpoint} {codec : Codec} {arrived unread : List Received}
  {record : List Occurrence} {due : List Event} {buffer : Bytes}

theorem step_next {reading : Reading} (seen : List Received)
    (h : endpoint.transport.nextEvent endpoint.unread = reading)
    (hseen : endpoint.unread = seen ++ reading.rest) :
    endpoint.step .next = (⟨reading.transport, reading.rest⟩,
      seen.map .read ++ [.ofEvent? reading.event]) := by
  have hcount : endpoint.unread.length - reading.rest.length = seen.length := by
    rw [hseen, List.length_append, Nat.add_sub_cancel]
  have htaken : endpoint.unread.take seen.length = seen := by rw [hseen, List.take_left]
  simp only [step, h, hcount, htaken]

/-- What an occurrence on a connection tells of those before it. -/
def Fits (codec : Codec) (before : List Occurrence) : Occurrence → Prop
  | .connected _ => False
  | .closed => True
  | .read _ => .closed ∉ before ∧ returns before = eventsOf codec [] (reads before)
  | .waited => .closed ∉ before → returns before = eventsOf codec [] (reads before)
  | .returned event =>
      .closed ∉ before ∧ returns before ++ [event] <+: eventsOf codec [] (reads before) ∧
        ((∀ item, event ≠ .item item) →
          returns before ++ [event] = eventsOf codec [] (reads before))

structure Sound (codec : Codec) (arrived : List Received) (record : List Occurrence) : Prop where
  fits : ∀ before occurrence, before ++ [occurrence] <+: record → Fits codec before occurrence
  reads_of_arrived : reads record <+: arrived
  returns_of_reads : returns record <+: eventsOf codec [] (reads record)

/-- A connection that is not closed: what was read and not returned is due. -/
structure Live (codec : Codec) (arrived : List Received) (record : List Occurrence)
    (unread : List Received) (due : List Event) (buffer : Bytes) : Prop where
  fits : ∀ before occurrence, before ++ [occurrence] <+: record → Fits codec before occurrence
  notMem_closed : .closed ∉ record
  arrived_eq : arrived = reads record ++ unread
  returned_eq : returns record ++ due = eventsOf codec [] (reads record)
  buffer_eq : buffer = bufferAfter codec [] (reads record)

theorem fits_snoc {last : Occurrence}
    (h : ∀ before occurrence, before ++ [occurrence] <+: record → Fits codec before occurrence)
    (hlast : Fits codec record last) (before : List Occurrence) (occurrence : Occurrence)
    (hpart : before ++ [occurrence] <+: record ++ [last]) : Fits codec before occurrence := by
  rcases List.prefix_concat_iff.mp hpart with heq | hpart
  · obtain ⟨rfl, hsame⟩ := List.append_inj' heq rfl
    obtain rfl := List.singleton_inj.mp hsame
    exact hlast
  · exact h before occurrence hpart

namespace Sound

theorem arrive (h : Sound codec arrived record) (received : List Received) :
    Sound codec (arrived ++ received) record :=
  { h with reads_of_arrived := h.reads_of_arrived.trans (List.prefix_append _ _) }

theorem snoc (h : Sound codec arrived record) {last : Occurrence} (hfits : Fits codec record last)
    (hread : last.read? = none) (hreturned : last.returned? = none) :
    Sound codec arrived (record ++ [last]) where
  fits := fits_snoc h.fits hfits
  reads_of_arrived := by simpa [reads_snoc, hread] using h.reads_of_arrived
  returns_of_reads := by simpa [reads_snoc, returns_snoc, hread, hreturned] using h.returns_of_reads

end Sound

namespace Live

theorem sound (h : Live codec arrived record unread due buffer) : Sound codec arrived record where
  fits := h.fits
  reads_of_arrived := h.arrived_eq ▸ List.prefix_append _ _
  returns_of_reads := h.returned_eq ▸ List.prefix_append _ _

theorem connected (codec : Codec) : Live codec [] [] [] [] [] where
  fits before occurrence hpart := by simp at hpart
  notMem_closed := List.not_mem_nil
  arrived_eq := rfl
  returned_eq := rfl
  buffer_eq := rfl

theorem arrive (h : Live codec arrived record unread due buffer) (received : List Received) :
    Live codec (arrived ++ received) record (unread ++ received) due buffer :=
  { h with arrived_eq := by rw [h.arrived_eq, List.append_assoc] }

theorem read {received : Received}
    (h : Live codec arrived record (received :: unread) [] buffer) :
    Live codec arrived (record ++ [.read received]) unread (digest codec buffer received).1
      (digest codec buffer received).2 where
  fits := fits_snoc h.fits ⟨h.notMem_closed, by simpa using h.returned_eq⟩
  notMem_closed := by simpa using h.notMem_closed
  arrived_eq := by simp [reads_snoc, Occurrence.read?, h.arrived_eq]
  returned_eq := by
    have hreturned := h.returned_eq
    rw [List.append_nil] at hreturned
    simp only [reads_snoc, returns_snoc, Occurrence.read?, Occurrence.returned?,
      Option.toList_some, Option.toList_none, List.append_nil]
    rw [eventsOf_append, hreturned, h.buffer_eq]
    simp only [eventsOf, List.append_nil]
  buffer_eq := by
    simp only [reads_snoc, Occurrence.read?, Option.toList_some]
    rw [bufferAfter_snoc, ← h.buffer_eq]

theorem snoc {last : Occurrence}
    (h : Live codec arrived record unread (last.returned?.toList ++ due) buffer)
    (hfits : Fits codec record last) (hclosed : .closed ≠ last) (hread : last.read? = none) :
    Live codec arrived (record ++ [last]) unread due buffer where
  fits := fits_snoc h.fits hfits
  notMem_closed := by simpa [hclosed] using h.notMem_closed
  arrived_eq := by simpa [reads_snoc, hread] using h.arrived_eq
  returned_eq := by simpa [reads_snoc, returns_snoc, hread] using h.returned_eq
  buffer_eq := by simpa [reads_snoc, hread] using h.buffer_eq

theorem returned {event : Event} (h : Live codec arrived record unread (event :: due) buffer)
    (hlast : (∀ item, event ≠ .item item) → due = []) :
    Live codec arrived (record ++ [.returned event]) unread due buffer := by
  have hreturned : returns record ++ [event] ++ due = eventsOf codec [] (reads record) := by
    simpa using h.returned_eq
  refine h.snoc ⟨h.notMem_closed, ?_, fun hevent => ?_⟩ Occurrence.noConfusion rfl
  · rw [← hreturned]
    exact List.prefix_append _ _
  · rwa [hlast hevent, List.append_nil] at hreturned

theorem waited (h : Live codec arrived record unread [] buffer) :
    Live codec arrived (record ++ [.waited]) unread [] buffer :=
  h.snoc (fun _ => by simpa using h.returned_eq) Occurrence.noConfusion rfl

/-- A transport with nothing in hand reads up to the first message that gives an event. -/
theorem poll {transport : Transport}
    (h : Live transport.codec arrived record unread [] transport.buffer)
    (hpending : transport.pending = []) :
    ∃ seen, unread = seen ++ (transport.read unread).rest ∧
      Live transport.codec arrived
        (record ++ (seen.map .read ++ [.ofEvent? (transport.read unread).event]))
        (transport.read unread).rest ((transport.read unread).transport.pending.map Event.item)
        (transport.read unread).transport.buffer := by
  induction unread generalizing transport record with
  | nil =>
      exact ⟨[], rfl, by simpa [Transport.read, Occurrence.ofEvent?, hpending] using h.waited⟩
  | cons received rest ih =>
      have hread := h.read
      rcases read_cons hpending received rest with
        ⟨hnothing, heq⟩ | ⟨event, next, heq, -, hdigest, hlast⟩
      · rw [hnothing] at hread
        obtain ⟨seen, hseen, hlive⟩ := @ih _
          { transport with buffer := (digest transport.codec transport.buffer received).2 }
          hread hpending
        refine ⟨received :: seen, ?_, ?_⟩
        · rw [heq]
          exact congrArg (received :: ·) hseen
        · rw [heq]
          simpa using hlive
      · rw [hdigest] at hread
        have hreturned := hread.returned fun hevent => by rw [hlast hevent, List.map_nil]
        rw [heq]
        exact ⟨[received], rfl, by simpa [Occurrence.ofEvent?] using hreturned⟩

end Live

/-! ## Runs -/

/--
The record of the present connection and what the endpoint is like after it.  What the
transport has in hand is due, and its buffer is the one that decoding left; after a close
there is neither a connection nor anything in hand.
-/
inductive Recorded (codec : Codec) (arrived : List Received) (record : List Occurrence)
    (endpoint : Endpoint) : Prop
  | live (hcodec : endpoint.transport.codec = codec)
      (h : Live codec arrived record endpoint.unread (endpoint.transport.pending.map Event.item)
        endpoint.transport.buffer)
  | shut (hclosed : .closed ∈ record) (hopen : endpoint.transport.isOpen = false)
      (hpending : endpoint.transport.pending = []) (h : Sound codec arrived record)

namespace Recorded

theorem sound (h : Recorded codec arrived record endpoint) : Sound codec arrived record := by
  cases h with
  | live hcodec h => exact h.sound
  | shut hclosed hopen hpending h => exact h

theorem next (h : Recorded codec arrived record endpoint) :
    Recorded codec arrived (record ++ (endpoint.step .next).2) (endpoint.step .next).1 := by
  cases h with
  | live hcodec h =>
      subst hcodec
      cases hpending : endpoint.transport.pending with
      | cons item pending =>
          rw [step_next [] (nextEvent_cons hpending _) rfl]
          rw [hpending] at h
          exact .live rfl (h.returned fun hevent => absurd rfl (hevent item))
      | nil =>
          rw [hpending] at h
          cases hopen : endpoint.transport.isOpen with
          | false =>
              rw [step_next [] (nextEvent_of_not_isOpen hpending hopen _) rfl]
              exact .live rfl (hpending ▸ h.waited)
          | true =>
              obtain ⟨seen, hseen, hlive⟩ := h.poll hpending
              rw [step_next seen (nextEvent_eq_read hopen hpending _) hseen]
              exact .live (codec_read hpending _) hlive
  | shut hclosed hopen hpending h =>
      rw [step_next [] (nextEvent_of_not_isOpen hpending hopen _) rfl]
      refine .shut (List.mem_append_left _ hclosed) hopen hpending (h.snoc ?_ rfl rfl)
      exact fun hopen => absurd hclosed hopen

theorem step {action : Action} (h : Recorded codec arrived record endpoint)
    (haction : ∀ opened, action ≠ .connect opened) :
    Recorded codec (arrived ++ arrivals [action]) (record ++ (endpoint.step action).2)
      (endpoint.step action).1 := by
  cases action with
  | connect opened => exact absurd rfl (haction opened)
  | close =>
      simp only [arrivals, List.filterMap_cons, List.filterMap_nil, List.append_nil]
      exact .shut (by simp [Endpoint.step]) rfl rfl (h.sound.snoc trivial rfl rfl)
  | arrive received =>
      simp only [Endpoint.step, List.append_nil]
      cases h with
      | live hcodec h => exact .live hcodec (h.arrive [received])
      | shut hclosed hopen hpending h => exact .shut hclosed hopen hpending (h.arrive [received])
  | next =>
      simp only [arrivals, List.filterMap_cons, List.filterMap_nil, List.append_nil]
      exact h.next

theorem run {actions : List Action} (h : Recorded codec arrived record endpoint)
    (hactions : ∀ opened, .connect opened ∉ actions) :
    Recorded codec (arrived ++ arrivals actions) (record ++ (endpoint.run actions).2)
      (endpoint.run actions).1 := by
  induction actions generalizing arrived record endpoint with
  | nil => simpa [arrivals, Endpoint.run] using h
  | cons action actions ih =>
      have hfirst := h.step fun opened heq => hactions opened (heq ▸ List.mem_cons_self)
      have hrest := ih hfirst fun opened hmem => hactions opened (List.mem_cons_of_mem _ hmem)
      have harrivals : arrivals (action :: actions) = arrivals [action] ++ arrivals actions :=
        List.filterMap_append (l := [action])
      rw [harrivals, ← List.append_assoc]
      simpa only [Endpoint.run, List.append_assoc] using hrest

end Recorded

end Endpoint

end Stomp.Socket

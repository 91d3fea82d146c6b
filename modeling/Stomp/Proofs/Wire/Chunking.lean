import Stomp.Proofs.Wire.Stability
import Stomp.Wire.Codec

/-!
# Cutting a stream into messages

Without completion the messages that a stream comes in do not matter: every
cutting gives the same frames and the same bytes left, or the same fault
(`decodeMessages_of_flatten_eq`).  Only heartbeats are counted differently, since a
line end after a frame passes with the frame if it comes in one message with it.
-/

namespace Stomp.Wire

open Bytes

/-! ## Frames and heartbeats -/

def Item.frame? : Item → Option Frame
  | .heartbeat => none
  | .frame content => some content

def framesOf (items : List Item) : List Frame := items.filterMap Item.frame?

def beatsOf (items : List Item) : Nat := items.count .heartbeat

@[simp] theorem framesOf_nil : framesOf [] = [] := rfl

@[simp] theorem framesOf_heartbeat (items : List Item) :
    framesOf (.heartbeat :: items) = framesOf items := rfl

@[simp] theorem framesOf_frame (content : Frame) (items : List Item) :
    framesOf (.frame content :: items) = content :: framesOf items := rfl

@[simp] theorem framesOf_append (first last : List Item) :
    framesOf (first ++ last) = framesOf first ++ framesOf last := List.filterMap_append

@[simp] theorem beatsOf_nil : beatsOf [] = 0 := rfl

@[simp] theorem beatsOf_heartbeat (items : List Item) :
    beatsOf (.heartbeat :: items) = beatsOf items + 1 := List.count_cons_self

@[simp] theorem beatsOf_frame (content : Frame) (items : List Item) :
    beatsOf (.frame content :: items) = beatsOf items := List.count_cons_of_ne (by simp)

@[simp] theorem beatsOf_append (first last : List Item) :
    beatsOf (first ++ last) = beatsOf first + beatsOf last := List.count_append

/-! ## Heartbeats that may be missing -/

/-- The second of two buffers held what the first held, and up to `slack` more heartbeats. -/
structure Drained.Within (slack : Nat) (first second : Drained) : Prop where
  rest_eq : first.rest = second.rest
  fault_eq : first.fault = second.fault
  frames_eq : framesOf first.items = framesOf second.items
  beats_le : beatsOf first.items ≤ beatsOf second.items
  le_beats : beatsOf second.items ≤ beatsOf first.items + slack

namespace Drained.Within

variable {slack : Nat} {first second third : Drained}

theorem refl (drained : Drained) : Within 0 drained drained :=
  ⟨rfl, rfl, rfl, Nat.le_refl _, Nat.le_refl _⟩

theorem trans {more : Nat} (h : Within slack first second) (h' : Within more second third) :
    Within (slack + more) first third where
  rest_eq := h.rest_eq.trans h'.rest_eq
  fault_eq := h.fault_eq.trans h'.fault_eq
  frames_eq := h.frames_eq.trans h'.frames_eq
  beats_le := Nat.le_trans h.beats_le h'.beats_le
  le_beats := by
    have := h.le_beats
    have := h'.le_beats
    omega

theorem mono {more : Nat} (h : Within slack first second) (hle : slack ≤ more) :
    Within more first second :=
  { h with le_beats := Nat.le_trans h.le_beats (Nat.add_le_add_left hle _) }

theorem prepend (h : Within slack first second) (items : List Item) :
    Within slack { first with items := items ++ first.items }
      { second with items := items ++ second.items } where
  rest_eq := h.rest_eq
  fault_eq := h.fault_eq
  frames_eq := by
    simp only [framesOf_append, h.frames_eq]
  beats_le := by
    simp only [beatsOf_append]
    exact Nat.add_le_add_left h.beats_le _
  le_beats := by
    simp only [beatsOf_append, Nat.add_assoc]
    exact Nat.add_le_add_left h.le_beats _

end Drained.Within

theorem drain_skipEol (buffer : Bytes) :
    Drained.Within 1 (drain (skipEol buffer)) (drain buffer) := by
  cases h : afterEol? buffer with
  | none =>
      rw [skipEol, h, Option.getD_none]
      exact (Drained.Within.refl _).mono (Nat.zero_le 1)
  | some rest =>
      rw [skipEol, h, Option.getD_some, drain_item (Item.decode_eol h)]
      exact ⟨rfl, rfl, rfl, by simp, by simp⟩

/-! ## One message more -/

theorem decode_rest_of_fault_eq_none {buffer : Bytes} (h : (drain buffer).fault = none) :
    Item.decode (drain buffer).rest = .idle := by
  fun_induction drain buffer with
  | case1 buffer hidle => exact hidle
  | case2 => simp at h
  | case3 buffer item rest hitem more ih => exact ih h

theorem drain_append_of_fault {buffer : Bytes} {fault : DecodeFault}
    (h : (drain buffer).fault = some fault) (more : Bytes) :
    (drain (buffer ++ more)).fault = some fault := by
  fun_induction drain buffer with
  | case1 => simp at h
  | case2 buffer found rest hfault =>
      obtain rfl := Option.some.inj h
      have hext := Item.decode_append buffer more
      rw [hfault] at hext
      generalize hlater : Item.decode (buffer ++ more) = decoding at hext
      cases hext with
      | fault => rw [drain_fault hlater]
  | case3 buffer item rest hitem later ih =>
      have hext := Item.decode_append buffer more
      rw [hitem] at hext
      generalize hlater : Item.decode (buffer ++ more) = decoding at hext
      cases hext with
      | heartbeat =>
          rw [drain_item hlater]
          exact ih h
      | frame hleft =>
          rw [drain_item hlater]
          obtain rfl | rfl := hleft
          · exact ih h
          · exact (drain_skipEol (rest ++ more)).fault_eq.trans (ih h)

/--
Draining a buffer that goes on drains its items, and then what they left with the
rest.  Each frame may have taken along a line end that would be a heartbeat.
-/
theorem drain_append {buffer : Bytes} (h : (drain buffer).fault = none) (more : Bytes) :
    Drained.Within (framesOf (drain buffer).items).length (drain (buffer ++ more))
      { drain ((drain buffer).rest ++ more) with
        items := (drain buffer).items ++ (drain ((drain buffer).rest ++ more)).items } := by
  fun_induction drain buffer with
  | case1 buffer hidle => exact .refl _
  | case2 => simp at h
  | case3 buffer item rest hitem later ih =>
      have hext := Item.decode_append buffer more
      rw [hitem] at hext
      generalize hlater : Item.decode (buffer ++ more) = decoding at hext
      cases hext with
      | heartbeat =>
          rw [drain_item hlater]
          exact (ih h).prepend [.heartbeat]
      | @frame content _ left hleft =>
          rw [drain_item hlater]
          have hleft : Drained.Within 1 (drain left) (drain (rest ++ more)) := by
            obtain rfl | rfl := hleft
            · exact (Drained.Within.refl _).mono (Nat.zero_le 1)
            · exact drain_skipEol (rest ++ more)
          have hboth := (hleft.trans (ih h)).prepend [.frame content]
          rw [Nat.add_comm] at hboth
          exact hboth

/-! ## Streams -/

namespace Codec

variable {codec : Codec} {buffer : Bytes}

theorem decodeMessage_of_off (hoff : codec.completes = false) (buffer message : Bytes) :
    codec.decodeMessage buffer message = (drain (buffer ++ message)).intake := by
  simp [decodeMessage, hoff]

theorem decodeMessages_cons_fault (hoff : codec.completes = false) {message : Bytes}
    {fault : DecodeFault} (h : (drain (buffer ++ message)).fault = some fault) (index : Nat)
    (messages : List Bytes) :
    codec.decodeMessages index buffer (message :: messages) =
      ⟨[], (drain (buffer ++ message)).rest, some (index, fault)⟩ := by
  simp only [decodeMessages, decodeMessage_of_off hoff, Drained.intake, h]

theorem decodeMessages_cons_ok (hoff : codec.completes = false) {message : Bytes}
    (h : (drain (buffer ++ message)).fault = none) (index : Nat) (messages : List Bytes) :
    codec.decodeMessages index buffer (message :: messages) =
      let more := codec.decodeMessages (index + 1) (drain (buffer ++ message)).rest messages
      { more with items := (drain (buffer ++ message)).items ++ more.items } := by
  simp only [decodeMessages, decodeMessage_of_off hoff, Drained.intake, h]

theorem decodeMessages_fault (hoff : codec.completes = false) (index : Nat)
    (messages : List Bytes) (hidle : Item.decode buffer = .idle) :
    (codec.decodeMessages index buffer messages).fault.map Prod.snd =
      (drain (buffer ++ messages.flatten)).fault := by
  induction messages generalizing index buffer with
  | nil =>
      rw [List.flatten_nil, List.append_nil, drain_idle hidle]
      rfl
  | cons message messages ih =>
      rw [List.flatten_cons, ← List.append_assoc]
      cases hfault : (drain (buffer ++ message)).fault with
      | some fault =>
          rw [decodeMessages_cons_fault hoff hfault, drain_append_of_fault hfault]
          rfl
      | none =>
          rw [decodeMessages_cons_ok hoff hfault, (drain_append hfault _).fault_eq]
          exact ih (index + 1) (decode_rest_of_fault_eq_none hfault)

theorem decodeMessages_within (hoff : codec.completes = false) (index : Nat)
    (messages : List Bytes) (hidle : Item.decode buffer = .idle)
    (hnone : (codec.decodeMessages index buffer messages).fault = none) :
    Drained.Within (framesOf (codec.decodeMessages index buffer messages).items).length
      (drain (buffer ++ messages.flatten))
      ⟨(codec.decodeMessages index buffer messages).items,
        (codec.decodeMessages index buffer messages).buffer, none⟩ := by
  induction messages generalizing index buffer with
  | nil =>
      rw [List.flatten_nil, List.append_nil, drain_idle hidle]
      exact .refl _
  | cons message messages ih =>
      rw [List.flatten_cons, ← List.append_assoc]
      cases hfault : (drain (buffer ++ message)).fault with
      | some fault =>
          rw [decodeMessages_cons_fault hoff hfault] at hnone
          simp at hnone
      | none =>
          rw [decodeMessages_cons_ok hoff hfault] at hnone ⊢
          have hrest := ih (index + 1) (decode_rest_of_fault_eq_none hfault) hnone
          have hwhole := drain_append hfault messages.flatten
          simp only [framesOf_append, List.length_append]
          exact hwhole.trans (hrest.prepend _)

/-! ## Two cuttings -/

/--
Two streams that failed alike, or that brought the same frames and left the same
bytes, with numbers of heartbeats that the frames account for.
-/
inductive SameOutcome (first second : Stream) : Prop
  | failed {at₁ at₂ : Nat} {fault : DecodeFault} (hfirst : first.fault = some (at₁, fault))
      (hsecond : second.fault = some (at₂, fault))
  | passed (hfirst : first.fault = none) (hsecond : second.fault = none)
      (hframes : framesOf first.items = framesOf second.items)
      (hbuffer : first.buffer = second.buffer)
      (hfewer : beatsOf first.items ≤ beatsOf second.items + (framesOf first.items).length)
      (hmore : beatsOf second.items ≤ beatsOf first.items + (framesOf first.items).length)

/-- Without completion the way a stream is cut into messages makes no difference. -/
theorem decodeMessages_of_flatten_eq (hoff : codec.completes = false) {first second : List Bytes}
    (h : first.flatten = second.flatten) :
    SameOutcome (codec.decodeMessages 0 [] first) (codec.decodeMessages 0 [] second) := by
  have hfirst := decodeMessages_fault hoff 0 first (rfl : Item.decode [] = .idle)
  have hsecond := decodeMessages_fault hoff 0 second (rfl : Item.decode [] = .idle)
  rw [h, ← hsecond] at hfirst
  cases hfault : (codec.decodeMessages 0 [] second).fault with
  | some found =>
      rw [hfault] at hfirst
      obtain ⟨⟨at₁, fault⟩, hat, rfl⟩ := Option.map_eq_some_iff.mp hfirst
      exact .failed hat hfault
  | none =>
      rw [hfault] at hfirst
      have hnone := Option.map_eq_none_iff.mp hfirst
      have hwithin₁ := decodeMessages_within hoff 0 first rfl hnone
      have hwithin₂ := decodeMessages_within hoff 0 second rfl hfault
      rw [h] at hwithin₁
      have hframes := hwithin₁.frames_eq.symm.trans hwithin₂.frames_eq
      have hle₁ := hwithin₁.le_beats
      have hle₂ := hwithin₂.le_beats
      rw [← hframes] at hle₂
      exact .passed hnone hfault hframes (hwithin₁.rest_eq.symm.trans hwithin₂.rest_eq)
        (Nat.le_trans hle₁ (Nat.add_le_add_right hwithin₂.beats_le _))
        (Nat.le_trans hle₂ (Nat.add_le_add_right hwithin₁.beats_le _))

def piecewise : List Bytes :=
  [Utf8.encode "SEND\nto:/", [], Utf8.encode "a\n\nhi\x00\r", [lf]]

theorem decodeMessages_piecewise :
    SameOutcome (decodeMessages {} 0 [] piecewise)
      (decodeMessages {} 0 [] [Utf8.encode "SEND\nto:/a\n\nhi\x00\r\n"]) :=
  decodeMessages_of_flatten_eq rfl (by decide)

end Codec

end Stomp.Wire

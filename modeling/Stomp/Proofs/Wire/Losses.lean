import Stomp.Proofs.Wire.Chunking

/-!
# What a malformed frame costs

A message with a fault is answered with the fault alone: the items taken from it
before are gone, whichever of the two passes took them (`Codec.lost`).  Every other
frame that stands before the fault is returned (`Codec.decodeMessages_taken`), so how
many frames get through depends on what shares a message with the malformed one.
-/

namespace Stomp.Wire

open Bytes

theorem framesOf_drain_append_of_fault {buffer : Bytes} {fault : DecodeFault}
    (h : (drain buffer).fault = some fault) (more : Bytes) :
    framesOf (drain (buffer ++ more)).items = framesOf (drain buffer).items := by
  fun_induction drain buffer with
  | case1 => simp at h
  | case2 buffer found rest hfault =>
      have hext := Item.decode_append buffer more
      rw [hfault] at hext
      generalize hlater : Item.decode (buffer ++ more) = decoding at hext
      cases hext with
      | fault => rw [drain_fault hlater]
  | case3 buffer item rest hitem later ih =>
      have hext := Item.decode_append buffer more
      rw [hitem] at hext
      generalize hlater : Item.decode (buffer ++ more) = decoding at hext
      cases hext with
      | heartbeat =>
          rw [drain_item hlater]
          exact ih h
      | @frame content _ left hleft =>
          rw [drain_item hlater]
          refine congrArg (content :: ·) ?_
          obtain rfl | rfl := hleft
          · exact ih h
          · exact (drain_skipEol (rest ++ more)).frames_eq.trans (ih h)

theorem rest_drain_of_nothing {buffer : Bytes} (hitems : (drain buffer).items = [])
    (hfault : (drain buffer).fault = none) : (drain buffer).rest = buffer := by
  cases hstep : Item.decode buffer with
  | idle => rw [drain_idle hstep]
  | item item rest =>
      rw [drain_item hstep] at hitems
      exact absurd hitems (List.cons_ne_nil _ _)
  | fault fault rest =>
      rw [drain_fault hstep] at hfault
      exact absurd hfault (Option.some_ne_none _)

/-! ## A frame that lacks its NUL -/

theorem isCompletable_iff {buffer : Bytes} :
    isCompletable buffer = true ↔
      buffer.all isEol = false ∧ ∃ raw, RawFrame.read (buffer ++ [nul]) = .complete raw [] := by
  rw [isCompletable, Bool.and_eq_true, Bool.not_eq_true']
  refine and_congr_right fun _ => ?_
  split
  · next raw hread => simp [hread]
  · next hread => simpa using hread

theorem drain_completed {rest : Bytes} {raw : RawFrame} (hidle : Item.decode rest = .idle)
    (heol : rest.all isEol = false) (hread : RawFrame.read (rest ++ [nul]) = .complete raw []) :
    drain (rest ++ [nul]) =
      match decodeFrame raw with
      | .ok frame => ⟨[.frame frame], [], none⟩
      | .error fault => ⟨[], [], some fault⟩ := by
  have hne : rest ≠ [] := by
    rintro rfl
    simp at heol
  have hcr : rest ≠ [cr] := by
    rintro rfl
    simp [isEol] at heol
  have hnone := afterEol?_append_eq_none (afterEol?_of_idle hidle) hne hcr [nul]
  have hempty : drain [] = ⟨[], [], none⟩ := drain_idle rfl
  have hdecode := Item.decode_of_no_eol hnone
  rw [decodeLeadingFrame, hread] at hdecode
  cases hframe : decodeFrame raw with
  | ok frame =>
      simp only [hframe] at hdecode
      simp only [drain_item hdecode, hempty]
  | error fault =>
      simp only [hframe] at hdecode
      exact drain_fault hdecode

namespace Codec

variable {codec : Codec} {buffer : Bytes}

/-! ## One message -/

def isCompleted (codec : Codec) (buffer message : Bytes) : Bool :=
  (drain (buffer ++ message)).fault.isNone && codec.completes &&
    isCompletable (drain (buffer ++ message)).rest

def ended (codec : Codec) (buffer message : Bytes) : Bytes :=
  if codec.isCompleted buffer message then message ++ [nul] else message

/-- What both passes over a message take, those items too that a fault costs. -/
def gather (codec : Codec) (buffer message : Bytes) : Drained :=
  let drained := drain (buffer ++ message)
  if codec.isCompleted buffer message then
    let completed := drain (drained.rest ++ [nul])
    { completed with items := drained.items ++ completed.items }
  else drained

theorem decodeMessage_eq_gather (codec : Codec) (buffer message : Bytes) :
    codec.decodeMessage buffer message = (codec.gather buffer message).intake := by
  rw [decodeMessage, gather, isCompleted]
  split <;> rfl

theorem ended_of_off (hoff : codec.completes = false) (buffer message : Bytes) :
    codec.ended buffer message = message := by
  simp [ended, isCompleted, hoff]

theorem ended_within_gather (codec : Codec) (buffer message : Bytes) :
    ∃ slack, Drained.Within slack (drain (buffer ++ codec.ended buffer message))
      (codec.gather buffer message) := by
  rw [ended, gather]
  split
  · next hcompleted =>
      rw [isCompleted, Bool.and_eq_true, Bool.and_eq_true, Option.isNone_iff_eq_none]
        at hcompleted
      rw [← List.append_assoc]
      exact ⟨_, drain_append hcompleted.1.1 [nul]⟩
  · exact ⟨0, .refl _⟩

theorem decodeMessages_cons_of_fault {message : Bytes} {fault : DecodeFault}
    (h : (codec.gather buffer message).fault = some fault) (index : Nat)
    (messages : List Bytes) :
    codec.decodeMessages index buffer (message :: messages) =
      ⟨[], (codec.gather buffer message).rest, some (index, fault)⟩ := by
  simp only [decodeMessages, decodeMessage_eq_gather, Drained.intake, h]

theorem decodeMessages_cons_of_ok {message : Bytes}
    (h : (codec.gather buffer message).fault = none) (index : Nat) (messages : List Bytes) :
    codec.decodeMessages index buffer (message :: messages) =
      let more := codec.decodeMessages (index + 1) (codec.gather buffer message).rest messages
      { more with items := (codec.gather buffer message).items ++ more.items } := by
  simp only [decodeMessages, decodeMessage_eq_gather, Drained.intake, h]

theorem gather_of_decodeMessage {message left : Bytes} {items : List Item}
    (h : codec.decodeMessage buffer message = ⟨.ok items, left⟩) :
    codec.gather buffer message = ⟨items, left, none⟩ := by
  rw [decodeMessage_eq_gather] at h
  generalize codec.gather buffer message = gathered at h ⊢
  obtain ⟨found, rest, fault⟩ := gathered
  cases fault with
  | some fault => simp [Drained.intake] at h
  | none => simpa [Drained.intake] using h

theorem decodeMessage_cases {message left : Bytes} {items : List Item}
    (h : codec.decodeMessage buffer message = ⟨.ok items, left⟩) :
    drain (buffer ++ message) = ⟨items, left, none⟩ ∧
        (codec.completes && isCompletable left) = false ∨
      ∃ first rest content, codec.completes = true ∧
        drain (buffer ++ message) = ⟨first, rest, none⟩ ∧
        drain (rest ++ [nul]) = ⟨[.frame content], [], none⟩ ∧
        items = first ++ [.frame content] ∧ left = [] := by
  have hgather := gather_of_decodeMessage h
  rw [gather] at hgather
  split at hgather
  · next hcompleted =>
      rw [isCompleted, Bool.and_eq_true, Bool.and_eq_true, Option.isNone_iff_eq_none]
        at hcompleted
      obtain ⟨⟨hfault, hon⟩, hcompletable⟩ := hcompleted
      obtain ⟨heol, raw, hread⟩ := isCompletable_iff.mp hcompletable
      have hcompleted := drain_completed (decode_rest_of_fault_eq_none hfault) heol hread
      obtain ⟨hitems, hrest, hnone⟩ := Drained.mk.inj hgather
      cases hframe : decodeFrame raw with
      | error fault => simp [hcompleted, hframe] at hnone
      | ok content =>
          rw [hframe] at hcompleted
          rw [hcompleted] at hitems hrest
          have hfirst : drain (buffer ++ message) =
              ⟨(drain (buffer ++ message)).items, (drain (buffer ++ message)).rest, none⟩ := by
            rw [← hfault]
          exact .inr ⟨_, _, content, hon, hfirst, hcompleted, hitems.symm, hrest.symm⟩
  · next hplain => exact .inl ⟨hgather, by simpa [isCompleted, hgather] using hplain⟩

theorem decode_of_decodeMessage {message left : Bytes} {items : List Item}
    (h : codec.decodeMessage buffer message = ⟨.ok items, left⟩) :
    Item.decode left = .idle := by
  rcases decodeMessage_cases h with ⟨hdrain, -⟩ | ⟨-, -, -, -, -, -, -, rfl⟩
  · have hidle := decode_rest_of_fault_eq_none (congrArg Drained.fault hdrain)
    rwa [hdrain] at hidle
  · rfl

theorem decodeMessage_eq_nothing {message left : Bytes}
    (h : codec.decodeMessage buffer message = ⟨.ok [], left⟩) : left = buffer ++ message := by
  rcases decodeMessage_cases h with ⟨hdrain, -⟩ | ⟨first, rest, content, -, -, -, hitems, -⟩
  · have hrest := rest_drain_of_nothing (congrArg Drained.items hdrain)
      (congrArg Drained.fault hdrain)
    rwa [hdrain] at hrest
  · exact absurd hitems.symm (by simp)

/-! ## Messages up to a fault -/

/-- The stream that messages make, with the NULs that complete them. -/
def taken (codec : Codec) (buffer : Bytes) : List Bytes → Bytes
  | [] => []
  | message :: messages =>
      codec.ended buffer message ++
        match (codec.gather buffer message).fault with
        | some _ => messages.flatten
        | none => codec.taken (codec.gather buffer message).rest messages

/-- The items that were taken from the message that failed, and not returned. -/
def lost (codec : Codec) (buffer : Bytes) : List Bytes → List Item
  | [] => []
  | message :: messages =>
      match (codec.gather buffer message).fault with
      | some _ => (codec.gather buffer message).items
      | none => codec.lost (codec.gather buffer message).rest messages

theorem taken_of_off (hoff : codec.completes = false) (buffer : Bytes)
    (messages : List Bytes) : codec.taken buffer messages = messages.flatten := by
  induction messages generalizing buffer with
  | nil => rfl
  | cons message messages ih =>
      rw [taken, ended_of_off hoff, List.flatten_cons]
      split
      · rfl
      · rw [ih]

theorem lost_of_fault_eq_none {index : Nat} {messages : List Bytes}
    (h : (codec.decodeMessages index buffer messages).fault = none) :
    codec.lost buffer messages = [] := by
  induction messages generalizing index buffer with
  | nil => rfl
  | cons message messages ih =>
      cases hfault : (codec.gather buffer message).fault with
      | some fault => simp [decodeMessages_cons_of_fault hfault] at h
      | none =>
          rw [decodeMessages_cons_of_ok hfault] at h
          rw [lost, hfault]
          exact ih h

/--
Messages fail as the stream they make does, and each of its frames was either returned
or taken from the message that failed.
-/
theorem decodeMessages_taken (codec : Codec) (index : Nat) (messages : List Bytes)
    (hidle : Item.decode buffer = .idle) :
    (codec.decodeMessages index buffer messages).fault.map Prod.snd =
        (drain (buffer ++ codec.taken buffer messages)).fault ∧
      framesOf (codec.decodeMessages index buffer messages).items ++
          framesOf (codec.lost buffer messages) =
        framesOf (drain (buffer ++ codec.taken buffer messages)).items := by
  induction messages generalizing index buffer with
  | nil =>
      rw [taken, List.append_nil, drain_idle hidle]
      exact ⟨rfl, rfl⟩
  | cons message messages ih =>
      obtain ⟨slack, hwithin⟩ := codec.ended_within_gather buffer message
      rw [taken, lost, ← List.append_assoc]
      cases hfault : (codec.gather buffer message).fault with
      | some fault =>
          have hended := hwithin.fault_eq.trans hfault
          rw [decodeMessages_cons_of_fault hfault]
          exact ⟨(drain_append_of_fault hended _).symm,
            hwithin.frames_eq.symm.trans (framesOf_drain_append_of_fault hended _).symm⟩
      | none =>
          have hended := hwithin.fault_eq.trans hfault
          have hrest := decode_rest_of_fault_eq_none hended
          have hwhole := drain_append hended
            (codec.taken (codec.gather buffer message).rest messages)
          rw [hwithin.rest_eq] at hrest hwhole
          have hmore := ih (index + 1) hrest
          rw [decodeMessages_cons_of_ok hfault]
          refine ⟨hmore.1.trans hwhole.fault_eq.symm, ?_⟩
          rw [framesOf_append, List.append_assoc, hmore.2, hwhole.frames_eq, framesOf_append,
            hwithin.frames_eq]

end Codec

end Stomp.Wire

import Stomp.Proofs.Wire.Accounting

/-!
# What completion adds

With completion a message comes to the same as without it, unless one frame that lacks its
NUL is all that is left: then that frame comes as well, or what is wrong with its text
(`Codec.completion_conservative`).
-/

namespace Stomp.Wire.Codec

open Bytes

variable {codec : Codec} {buffer message left : Bytes} {items : List Item}
  {fault : DecodeFault} {raw : RawFrame}

theorem isCompletable_eq_false_iff {rest : Bytes} :
    isCompletable rest = false ↔ (∀ b ∈ rest, b = cr ∨ b = lf) ∨
      ¬ ∃ raw, RawFrame.read (rest ++ [nul]) = .complete raw [] := by
  rw [← Bool.not_eq_true, isCompletable_iff, not_and_or, Bool.not_eq_false, List.all_eq_true]
  simp only [isEol_iff]

theorem drain_of_off (h : decodeMessage ⟨false⟩ buffer message = ⟨.ok items, left⟩) :
    drain (buffer ++ message) = ⟨items, left, none⟩ := by
  rcases decodeMessage_cases h with ⟨hdrain, -⟩ | ⟨-, -, -, hon, -⟩
  · exact hdrain
  · exact absurd hon Bool.false_ne_true

theorem decodeMessage_of_fault (h : (drain (buffer ++ message)).fault = some fault) :
    codec.decodeMessage buffer message = ⟨.error fault, (drain (buffer ++ message)).rest⟩ := by
  simp [decodeMessage, h, Drained.intake]

theorem decodeMessage_of_plain (h : drain (buffer ++ message) = ⟨items, left, none⟩)
    (hplain : (codec.completes && isCompletable left) = false) :
    codec.decodeMessage buffer message = ⟨.ok items, left⟩ := by
  simp [decodeMessage, h, hplain, Drained.intake]

theorem decodeMessage_of_completed (h : drain (buffer ++ message) = ⟨items, left, none⟩)
    (hcompletable : isCompletable left = true)
    (hread : RawFrame.read (left ++ [nul]) = .complete raw []) :
    decodeMessage ⟨true⟩ buffer message =
      match decodeFrame raw with
      | .ok frame => ⟨.ok (items ++ [.frame frame]), []⟩
      | .error fault => ⟨.error fault, []⟩ := by
  have hidle := decode_rest_of_fault_eq_none (congrArg Drained.fault h)
  rw [h] at hidle
  have hcompleted := drain_completed hidle (isCompletable_iff.mp hcompletable).1 hread
  simp only [decodeMessage, h, hcompletable, hcompleted]
  cases decodeFrame raw <;> rfl

theorem decodeMessage_again (h : codec.decodeMessage buffer message = ⟨.ok items, left⟩) :
    codec.decodeMessage left [] = ⟨.ok [], left⟩ := by
  have hdrain : drain (left ++ []) = ⟨[], left, none⟩ := by
    rw [List.append_nil]
    exact drain_idle (decode_of_decodeMessage h)
  rcases decodeMessage_cases h with ⟨-, hplain⟩ | ⟨-, -, -, -, -, -, -, rfl⟩
  · exact decodeMessage_of_plain hdrain hplain
  · exact decodeMessage_of_plain hdrain (Bool.and_false _)

/--
Completion changes what a message comes to only where one frame that lacks its NUL is all that
is left: that frame is returned after the other items, or its text cannot be read.  With or
without it, what a decoded message leaves gives nothing before more bytes come.
-/
theorem completion_conservative (buffer message : Bytes) :
    (∀ fault left, decodeMessage ⟨false⟩ buffer message = ⟨.error fault, left⟩ →
        decodeMessage ⟨true⟩ buffer message = ⟨.error fault, left⟩) ∧
      (∀ items rest, decodeMessage ⟨false⟩ buffer message = ⟨.ok items, rest⟩ →
        ((∀ b ∈ rest, b = cr ∨ b = lf) ∨
            (¬ ∃ raw, RawFrame.read (rest ++ [nul]) = .complete raw []) →
          decodeMessage ⟨true⟩ buffer message = ⟨.ok items, rest⟩) ∧
        ∀ raw, (∃ b ∈ rest, b ≠ cr ∧ b ≠ lf) →
          RawFrame.read (rest ++ [nul]) = .complete raw [] →
          (∃ frame, decodeFrame raw = .ok frame ∧
              decodeMessage ⟨true⟩ buffer message = ⟨.ok (items ++ [.frame frame]), []⟩) ∨
            ∃ fault, decodeFrame raw = .error fault ∧ Unreadable raw fault ∧
              decodeMessage ⟨true⟩ buffer message = ⟨.error fault, []⟩) ∧
      ∀ (codec : Codec) (items : List Item) (left : Bytes),
        codec.decodeMessage buffer message = ⟨.ok items, left⟩ →
          codec.decodeMessage left [] = ⟨.ok [], left⟩ := by
  refine ⟨fun fault left h => ?_, fun items rest h => ⟨fun hplain => ?_, ?_⟩,
    fun codec items left h => decodeMessage_again h⟩
  · rw [decodeMessage_of_off rfl] at h
    cases hfault : (drain (buffer ++ message)).fault with
    | none => simp [Drained.intake, hfault] at h
    | some found =>
        rw [decodeMessage_of_fault hfault]
        simpa [Drained.intake, hfault] using h
  · exact decodeMessage_of_plain (drain_of_off h) (isCompletable_eq_false_iff.mpr hplain)
  · rintro raw ⟨b, hb, hcr, hlf⟩ hread
    have hcompletable : isCompletable rest = true := by
      rw [← Bool.not_eq_false, isCompletable_eq_false_iff, not_or, not_not]
      exact ⟨fun hall => (hall b hb).elim hcr hlf, raw, hread⟩
    rw [decodeMessage_of_completed (drain_of_off h) hcompletable hread]
    cases hframe : decodeFrame raw with
    | ok frame => exact .inl ⟨frame, rfl, rfl⟩
    | error fault => exact .inr ⟨fault, rfl, unreadable_of_decodeFrame hframe, rfl⟩

theorem completion_conservative_unended :
    let cut := Utf8.encode "\rMESS"
    let rest := Utf8.encode "AGE\na:b\n\nhi"
    let unknown := Utf8.encode "MESSAGE\na\\t:b\n\nhi"
    decodeMessage ⟨false⟩ cut rest = ⟨.ok [], cut ++ rest⟩ ∧
      decodeMessage ⟨true⟩ cut rest =
        ⟨.ok [.frame ⟨"MESSAGE", [("a", "b")], Utf8.encode "hi"⟩], []⟩ ∧
      decodeMessage ⟨false⟩ [] unknown = ⟨.ok [], unknown⟩ ∧
      ∃ fault, decodeMessage ⟨true⟩ [] unknown = ⟨.error fault, []⟩ := by
  intro cut rest unknown
  have hcut : decodeMessage ⟨false⟩ cut rest = ⟨.ok [], cut ++ rest⟩ := by
    rw [decodeMessage_of_off rfl, show drain (cut ++ rest) = ⟨[], cut ++ rest, none⟩ by
      decide +kernel]
    rfl
  have hunknown : decodeMessage ⟨false⟩ [] unknown = ⟨.ok [], unknown⟩ := by
    rw [decodeMessage_of_off rfl, show drain ([] ++ unknown) = ⟨[], unknown, none⟩ by
      decide +kernel]
    rfl
  refine ⟨hcut, ?_, hunknown, ?_⟩
  · let raw : RawFrame :=
      ⟨Utf8.encode "MESSAGE", [(Utf8.encode "a", Utf8.encode "b")], some (Utf8.encode "hi")⟩
    have hframe : decodeFrame raw = .ok ⟨"MESSAGE", [("a", "b")], Utf8.encode "hi"⟩ := by
      decide +kernel
    have hcompleted := ((completion_conservative cut rest).2.1 _ _ hcut).2 raw
      ⟨0x4D, by decide +kernel, by decide⟩ (by decide +kernel)
    rcases hcompleted with ⟨frame, hdecoded, hmessage⟩ | ⟨fault, hdecoded, -⟩
    · rw [hframe, Except.ok.injEq] at hdecoded
      exact hdecoded ▸ hmessage
    · rw [hframe] at hdecoded
      exact nomatch hdecoded
  · let raw : RawFrame :=
      ⟨Utf8.encode "MESSAGE", [(Utf8.encode "a\\t", Utf8.encode "b")], some (Utf8.encode "hi")⟩
    have hcompleted := ((completion_conservative [] unknown).2.1 _ _ hunknown).2 raw
      ⟨0x4D, by decide +kernel, by decide⟩ (by decide +kernel)
    rcases hcompleted with ⟨frame, hdecoded, -⟩ | ⟨fault, -, -, hmessage⟩
    · have hnone : (decodeFrame raw).toOption = none := by decide +kernel
      rw [hdecoded] at hnone
      exact nomatch hnone
    · exact ⟨fault, hmessage⟩

end Stomp.Wire.Codec

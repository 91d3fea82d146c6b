import Stomp.Proofs.Wire.Headers
import Stomp.Proofs.Wire.Losses
import Stomp.Proofs.Wire.Prefix

/-!
# Where the bytes go

An item takes its own bytes from the front of a buffer and no others.  A buffer that
shows no item stays as it is, a malformed one for good, and a frame whose text cannot be
read is gone whole (`Accounts`).  So a message that was decoded, with what was there before it,
is the bytes of the items that were returned and what is left
(`Codec.accounts_for_bytes`).
-/

namespace Stomp.Wire

open Bytes

variable {buffer rest left : Bytes} {item : Item} {fault : DecodeFault} {raw : RawFrame}

/-! ## Frames that are no text -/

def HeaderPart.of (part : HeaderPart) (header : Bytes × Bytes) : Bytes :=
  match part with
  | .key => header.1
  | .value => header.2

/--
What is wrong with a whole frame that cannot be read: its command or a part of a header is
no text, or there is no such escape.  Some commands have headers without escapes.
-/
inductive Unreadable (raw : RawFrame) : DecodeFault → Prop
  | command {defect : Utf8.Defect} (h : ¬ ∃ text, Utf8.encode text = raw.command) :
      Unreadable raw (.commandNotText defect)
  | escape {header : Bytes × Bytes} {part : HeaderPart} {fault : EscapeFault}
      (hmem : header ∈ raw.headers)
      (hescaped : ∀ command, Utf8.encode command = raw.command →
        Frame.isVerbatimCommand command = false)
      (h : unescape (part.of header) = .error fault) : Unreadable raw (.badEscape part fault)
  | header {header : Bytes × Bytes} {part : HeaderPart} {defect : Utf8.Defect}
      (hmem : header ∈ raw.headers) (h : ¬ ∃ text, Utf8.encode text = part.of header) :
      Unreadable raw (.headerNotText part defect)

theorem not_encodes_of_decode {input : Bytes} {defect : Utf8.Defect}
    (h : Utf8.decode input = .error defect) : ¬ ∃ text, Utf8.encode text = input := by
  rintro ⟨text, rfl⟩
  simp at h

theorem decodeText_eq_error {verbatim : Bool} {part : HeaderPart} {input : Bytes}
    (h : decodeText verbatim part input = .error fault) :
    (∃ cause, fault = .badEscape part cause ∧ verbatim = false ∧ unescape input = .error cause) ∨
      ∃ defect, fault = .headerNotText part defect ∧ ¬ ∃ text, Utf8.encode text = input := by
  cases verbatim with
  | true =>
      rw [decodeText_verbatim, Except.mapError_eq_error] at h
      obtain ⟨defect, hdefect, rfl⟩ := h
      exact .inr ⟨defect, rfl, not_encodes_of_decode hdefect⟩
  | false =>
      rw [decodeText_escaped, Except.bind_eq_error] at h
      rcases h with h | ⟨plain, hplain, h⟩
      · obtain ⟨cause, hcause, rfl⟩ := Except.mapError_eq_error.mp h
        exact .inl ⟨cause, rfl, rfl, hcause⟩
      · obtain ⟨defect, hdefect, rfl⟩ := Except.mapError_eq_error.mp h
        rw [Except.mapError_eq_ok] at hplain
        exact .inr ⟨defect, rfl,
          mt (encodes_unescape_iff hplain []).mpr (not_encodes_of_decode hdefect)⟩

theorem unreadable_of_decodeFrame (h : decodeFrame raw = .error fault) :
    Unreadable raw fault := by
  rw [decodeFrame, Except.bind_eq_error] at h
  rcases h with h | ⟨command, hcommand, h⟩
  · obtain ⟨defect, hdefect, rfl⟩ := Except.mapError_eq_error.mp h
    exact .command (not_encodes_of_decode hdefect)
  rcases Except.bind_eq_error.mp h with h | ⟨headers, -, h⟩
  · obtain ⟨header, hmem, h⟩ := Except.exists_of_mapM_eq_error h
    have hpart (part : HeaderPart)
        (h : decodeText (Frame.isVerbatimCommand command) part (part.of header) = .error fault) :
        Unreadable raw fault := by
      rcases decodeText_eq_error h with ⟨cause, rfl, hverbatim, hcause⟩ | ⟨defect, rfl, hnone⟩
      · refine .escape hmem (fun other hother => ?_) hcause
        rw [Except.mapError_eq_ok, Utf8.decode_eq_ok_iff, ← hother, Utf8.encode_inj] at hcommand
        rwa [← hcommand]
      · exact .header hmem hnone
    rcases Except.bind_eq_error.mp h with h | ⟨key, -, h⟩
    · exact hpart .key h
    rcases Except.bind_eq_error.mp h with h | ⟨value, -, h⟩
    · exact hpart .value h
    · simp [pure, Except.pure] at h
  · simp [pure, Except.pure] at h

/-! ## One item -/

/-- What became of the bytes of a buffer that was asked for an item. -/
inductive Accounts (buffer : Bytes) : Decoding → Prop
  | idle (unchanged : drain buffer = ⟨[], buffer, none⟩) : Accounts buffer .idle
  | item {taken rest : Bytes} {item : Item} (whole : buffer = taken ++ rest)
      (ne_nil : taken ≠ []) (alone : Item.decode taken = .item item []) :
      Accounts buffer (.item item rest)
  | malformed {cause : Malformed}
      (stays : ∀ more, Item.decode (buffer ++ more) = .fault (.malformed cause) (buffer ++ more)) :
      Accounts buffer (.fault (.malformed cause) buffer)
  | unreadable {layout : Layout} {raw : RawFrame} {rest : Bytes} {fault : DecodeFault}
      (whole : buffer = layout.bytes ++ rest) (spells : layout.Spells raw rest)
      (unreadable : Unreadable raw fault) : Accounts buffer (.fault fault rest)

theorem accounts_of_malformed {cause : Malformed} (heol : afterEol? buffer = none)
    (h : RawFrame.read buffer = .malformed cause) :
    Accounts buffer (.fault (.malformed cause) buffer) := by
  have hne : buffer ≠ [] := by
    rintro rfl
    simp [RawFrame.read, cut?] at h
  have hcr : buffer ≠ [cr] := by
    rintro rfl
    simp [RawFrame.read, cut?, isEol] at h
  refine .malformed fun more => ?_
  rw [Item.decode_of_no_eol (afterEol?_append_eq_none heol hne hcr more), decodeLeadingFrame,
    RawFrame.read_append_of_malformed h]

theorem accounts_of_frame {frame : Frame} (heol : afterEol? buffer = none)
    (h : RawFrame.read buffer = .complete raw rest) (hframe : decodeFrame raw = .ok frame) :
    Accounts buffer (.item (.frame frame) rest) := by
  obtain ⟨taken, rfl, halone⟩ := RawFrame.exists_alone_of_read h
  have hnone : afterEol? taken = none := by
    cases hsome : afterEol? taken with
    | none => rfl
    | some after =>
        rw [afterEol?_append hsome] at heol
        simp at heol
  refine .item rfl ?_ ?_
  · rintro rfl
    simp [RawFrame.read, cut?] at halone
  · rw [Item.decode_of_no_eol hnone, decodeLeadingFrame, halone]
    simp only [hframe]

theorem Item.accounts (buffer : Bytes) : Accounts buffer (Item.decode buffer) := by
  cases heol : afterEol? buffer with
  | some rest =>
      obtain ⟨eol, hend, rfl⟩ := afterEol?_eq_some_iff.mp heol
      have halone : afterEol? eol = some [] :=
        afterEol?_eq_some_iff.mpr ⟨eol, hend, (List.append_nil eol).symm⟩
      rw [decode_eol heol]
      refine .item rfl ?_ (decode_eol halone)
      rintro rfl
      simp [afterEol?] at halone
  | none =>
      have hdecode := decode_of_no_eol heol
      rw [decodeLeadingFrame] at hdecode
      cases hread : RawFrame.read buffer with
      | incomplete =>
          rw [hread] at hdecode
          exact hdecode ▸ .idle (drain_idle hdecode)
      | malformed cause =>
          rw [hread] at hdecode
          exact hdecode ▸ accounts_of_malformed heol hread
      | complete raw rest =>
          rw [hread] at hdecode
          cases hframe : decodeFrame raw with
          | ok frame =>
              simp only [hframe] at hdecode
              exact hdecode ▸ accounts_of_frame heol hread hframe
          | error fault =>
              obtain ⟨layout, hwhole, hspells⟩ := RawFrame.spells_of_read hread
              simp only [hframe] at hdecode
              exact hdecode ▸ .unreadable hwhole hspells (unreadable_of_decodeFrame hframe)

/-! ## One item after another -/

/-- Items taken one after another from the front of a buffer, each with its bytes. -/
inductive Takes : Bytes → List (Bytes × Item) → Bytes → Prop
  | nothing (buffer : Bytes) : Takes buffer [] buffer
  | item {bytes rest left : Bytes} {item : Item} {more : List (Bytes × Item)}
      (hitem : Item.decode (bytes ++ rest) = .item item rest) (hmore : Takes rest more left) :
      Takes (bytes ++ rest) ((bytes, item) :: more) left

namespace Takes

variable {taken : List (Bytes × Item)}

theorem bytes_eq (h : Takes buffer taken left) :
    buffer = (taken.map Prod.fst).flatten ++ left := by
  induction h with
  | nothing => rfl
  | @item bytes rest left item more _ _ ih =>
      rw [List.map_cons, List.flatten_cons, List.append_assoc, ← ih]

theorem length_le (h : Takes buffer taken left) : taken.length + left.length ≤ buffer.length := by
  induction h with
  | nothing => simp
  | item hitem _ ih =>
      have hshorter := Item.decode_length hitem
      rw [List.length_cons]
      omega

theorem alone (h : Takes buffer taken left) :
    ∀ piece ∈ taken, Item.decode piece.1 = .item piece.2 [] := by
  induction h with
  | nothing => simp
  | @item bytes rest left item more hitem _ ih =>
      refine List.forall_mem_cons.mpr ⟨?_, ih⟩
      have haccounts := Item.accounts (bytes ++ rest)
      rw [hitem] at haccounts
      cases haccounts with
      | item whole _ halone =>
          obtain rfl := List.append_cancel_right whole
          exact halone

end Takes

theorem exists_takes (buffer : Bytes) :
    ∃ taken left, Takes buffer taken left ∧ (drain buffer).items = taken.map Prod.snd ∧
      (Item.decode left = .idle ∧ (drain buffer).rest = left ∧ (drain buffer).fault = none ∨
        ∃ fault, Item.decode left = .fault fault (drain buffer).rest ∧
          (drain buffer).fault = some fault) := by
  fun_induction drain buffer with
  | case1 buffer hidle => exact ⟨[], buffer, .nothing buffer, rfl, .inl ⟨hidle, rfl, rfl⟩⟩
  | case2 buffer fault rest hfault =>
      exact ⟨[], buffer, .nothing buffer, rfl, .inr ⟨fault, hfault, rfl⟩⟩
  | case3 buffer item rest hitem more ih =>
      obtain ⟨taken, left, htakes, hitems, hend⟩ := ih
      have haccounts := Item.accounts buffer
      rw [hitem] at haccounts
      cases haccounts with
      | @item bytes _ _ whole _ _ =>
          subst whole
          exact ⟨(bytes, item) :: taken, left, .item hitem htakes,
            congrArg (item :: ·) hitems, hend⟩

theorem takes_of_drain {items : List Item} (h : drain buffer = ⟨items, left, none⟩) :
    ∃ taken, Takes buffer taken left ∧ items = taken.map Prod.snd := by
  obtain ⟨taken, last, htakes, hitems, hend⟩ := exists_takes buffer
  rw [h] at hitems hend
  rcases hend with ⟨-, rfl, -⟩ | ⟨fault, -, hfault⟩
  · exact ⟨taken, htakes, hitems⟩
  · simp at hfault

/-! ## Messages -/

namespace Codec

/--
What asking for an item does to the bytes of a buffer; that asking again and again comes to
an end; and that a message that was decoded accounts for all bytes, with the NUL that
completed it.
-/
theorem accounts_for_bytes (codec : Codec) (buffer message : Bytes) :
    Accounts buffer (Item.decode buffer) ∧
      (∀ taken left, Takes buffer taken left → taken.length ≤ buffer.length) ∧
      (∃ taken left, Takes buffer taken left ∧ (drain buffer).items = taken.map Prod.snd ∧
        (Item.decode left = .idle ∧ (drain buffer).rest = left ∧ (drain buffer).fault = none ∨
          ∃ fault, Item.decode left = .fault fault (drain buffer).rest ∧
            (drain buffer).fault = some fault)) ∧
      ∀ items left, codec.decodeMessage buffer message = ⟨.ok items, left⟩ →
        ∃ taken : List (Bytes × Item), items = taken.map Prod.snd ∧
          (∀ piece ∈ taken, Item.decode piece.1 = .item piece.2 []) ∧
          (buffer ++ message = (taken.map Prod.fst).flatten ++ left ∨
            codec.completes = true ∧ left = [] ∧
              buffer ++ message ++ [nul] = (taken.map Prod.fst).flatten) := by
  refine ⟨Item.accounts buffer, fun taken left h => ?_, exists_takes buffer,
    fun items left h => ?_⟩
  · have := h.length_le
    omega
  rcases decodeMessage_cases h with
    ⟨hdrain, -⟩ | ⟨first, rest, content, hon, hfirst, hsecond, rfl, rfl⟩
  · obtain ⟨taken, htakes, hitems⟩ := takes_of_drain hdrain
    exact ⟨taken, hitems, htakes.alone, .inl htakes.bytes_eq⟩
  · obtain ⟨taken, htakes, rfl⟩ := takes_of_drain hfirst
    obtain ⟨last, hlast, hcontent⟩ := takes_of_drain hsecond
    refine ⟨taken ++ last, by rw [List.map_append, hcontent], ?_, .inr ⟨hon, rfl, ?_⟩⟩
    · exact List.forall_mem_append.mpr ⟨htakes.alone, hlast.alone⟩
    · rw [htakes.bytes_eq, List.append_assoc, hlast.bytes_eq, List.append_nil, List.map_append,
        List.flatten_append]

theorem accounts_for_bytes_completed :
    let first : Item := .frame ⟨"A", [("k", "v")], Utf8.encode "x"⟩
    let last : Item := .frame ⟨"B", [], Utf8.encode "y"⟩
    let buffer := Utf8.encode "\r\rA\nk:"
    let message := Utf8.encode "v\n\nx\x00\r\n\nB\n\ny"
    decodeMessage ⟨true⟩ buffer message = ⟨.ok [first, .heartbeat, last], []⟩ ∧
      ∃ taken : List (Bytes × Item), [first, .heartbeat, last] = taken.map Prod.snd ∧
        (∀ piece ∈ taken, Item.decode piece.1 = .item piece.2 []) ∧
        (buffer ++ message = (taken.map Prod.fst).flatten ++ [] ∨
          true = true ∧ ([] : Bytes) = [] ∧
            buffer ++ message ++ [nul] = (taken.map Prod.fst).flatten) := by
  intro first last buffer message
  have hgather : gather ⟨true⟩ buffer message = ⟨[first, .heartbeat, last], [], none⟩ := by
    decide +kernel
  have hmessage : decodeMessage ⟨true⟩ buffer message =
      ⟨.ok [first, .heartbeat, last], []⟩ := by
    rw [decodeMessage_eq_gather, hgather]
    rfl
  exact ⟨hmessage, (accounts_for_bytes ⟨true⟩ buffer message).2.2.2 _ _ hmessage⟩

end Codec

end Stomp.Wire

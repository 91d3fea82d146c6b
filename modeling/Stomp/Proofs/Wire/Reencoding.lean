import Stomp.Proofs.Wire.Written

/-!
# Writing what was read

A frame is seldom written in the very bytes that it was read from: lines end in a
line feed alone, and every mark in a header is escaped.  Read again it is the same
frame, but for the length that a binary body gains (`Item.decode_reencoded`).
-/

namespace Stomp.Wire

open Bytes

/-! ## Lengths -/

variable {verbatim : Bool} {part : HeaderPart} {bytes : Bytes} {text : String}

theorem find?_decoded {raws : List (Bytes × Bytes)} {headers : List Header}
    (h : Decodes verbatim raws headers) :
    (raws.find? (fun raw => isContentLength raw.1) = none ∧
        headers.find? (DeclaresLength ·) = none) ∨
      ∃ raw header, raws.find? (fun raw => isContentLength raw.1) = some raw ∧
        headers.find? (DeclaresLength ·) = some header ∧
          decodeHeader verbatim raw = .ok header := by
  induction h with
  | nil => exact .inl ⟨rfl, rfl⟩
  | @cons raw header raws headers hdecode _ ih =>
      have hname : isContentLength raw.1 = true ↔ DeclaresLength header :=
        isContentLength_iff.trans
          (declaresLength_iff_of_decodeText (decodeHeader_eq_ok_iff.mp hdecode).1)
      by_cases hdeclares : DeclaresLength header
      · right
        exact ⟨raw, header, List.find?_cons_of_pos (hname.mpr hdeclares),
          List.find?_cons_of_pos (by simpa using hdeclares), hdecode⟩
      · have hskip : isContentLength raw.1 = false := by
          rwa [← Bool.not_eq_true, hname]
        simp only [List.find?_cons, hskip, decide_eq_false hdeclares]
        exact ih

theorem eq_encodeText_of_namesNumber {n : Nat} (h : decodeText verbatim part bytes = .ok text)
    (hnumber : NamesNumber bytes n) (hlf : lf ∉ bytes) (hcr : cr ∉ bytes) :
    bytes = encodeText verbatim text := by
  cases verbatim with
  | true => exact decodeText_verbatim_iff.mp h
  | false =>
      obtain ⟨written, rfl, hpadded⟩ := hnumber
      have hbackslash : '\\' ∉ written.toList :=
        hpadded.notMem (by decide) (by decide) (by decide)
      have hcolon : ':' ∉ written.toList := hpadded.notMem (by decide) (by decide) (by decide)
      have hplain := decodeText_escaped_iff.mp h
      rw [unescape_eq_self (mt (Utf8.mem_of_mem_encode (by decide)) hbackslash)] at hplain
      obtain rfl := Utf8.encode_inj.mp (Except.ok.inj hplain)
      rw [encodeText_escaped, escape_eq_self]
      intro c hc
      refine ⟨fun hsame => hbackslash (hsame ▸ hc), ?_⟩
      rintro (rfl | rfl | rfl)
      · exact hcr (Utf8.mem_encode (by decide) hc)
      · exact hlf (Utf8.mem_encode (by decide) hc)
      · exact hcolon hc

theorem declaredLength_decoded {raws : List (Bytes × Bytes)} {headers : List Header}
    {declared : Option Nat} (h : Decodes verbatim raws headers)
    (hplain : ∀ raw ∈ raws, lf ∉ raw.2 ∧ cr ∉ raw.2)
    (hdeclared : declaredLength raws = .ok declared) :
    declaredLength (headers.map (rawHeader verbatim)) = .ok declared := by
  rw [← hdeclared, declaredLength, declaredLength, find?_isContentLength]
  rcases find?_decoded h with ⟨hraw, hheader⟩ | ⟨raw, header, hraw, hheader, hdecode⟩
  · rw [hraw, hheader]
    rfl
  · have first : DeclaresFirst raws raw.2 := declaresFirst_iff.mpr ⟨raw.1, hraw⟩
    obtain ⟨hlf, hcr⟩ := hplain raw (List.mem_of_find?_eq_some hraw)
    cases declared with
    | none => exact absurd hdeclared first.declaredLength_ne_none
    | some n =>
        have hvalue := eq_encodeText_of_namesNumber (decodeHeader_eq_ok_iff.mp hdecode).2
          (first.declaredLength_iff.mp hdeclared).1 hlf hcr
        rw [hraw, hheader, Option.map_some, rawHeader, ← hvalue]

/-! ## Carriage returns -/

/-- Every carriage return of a line is right before the line feed that ends it. -/
def IsTidy (line : Bytes) : Prop :=
  ∀ before after, line = before ++ cr :: after → after = [lf]

theorem IsLine.isTidy_iff {line content : Bytes} (h : IsLine line content) :
    IsTidy line ↔ cr ∉ content := by
  constructor
  · intro htidy hmem
    obtain ⟨before, after, rfl⟩ := List.append_of_mem hmem
    rcases h.ending with rfl | ⟨rfl, hlast⟩
    · have hafter := htidy before (after ++ [cr, lf]) (by simp)
      simpa using congrArg List.length hafter
    · have hafter := htidy before (after ++ [lf]) (by simp)
      obtain rfl : after = [] := by simpa using hafter
      exact hlast (by simp)
  · intro hcr before after hline
    have htail {tail : Bytes} (hsame : content ++ tail = before ++ cr :: after) :
        ∃ more, tail = more ++ cr :: after := by
      rcases List.append_eq_append_iff.mp hsame with ⟨more, -, hmore⟩ | ⟨more, rfl, hmore⟩
      · exact ⟨more, hmore⟩
      · cases more with
        | nil => exact ⟨[], hmore.symm⟩
        | cons b more =>
            obtain ⟨rfl, -⟩ := List.cons.inj hmore
            simp at hcr
    have hlf {more : Bytes} : [lf] ≠ more ++ cr :: after := by
      intro hsame
      have hmem : cr ∈ [lf] := by
        rw [hsame]
        simp
      exact absurd hmem (by decide)
    rcases h.ending with rfl | ⟨rfl, -⟩
    · obtain ⟨more, hmore⟩ := htail hline
      cases more with
      | nil => exact (List.cons.inj hmore).2.symm
      | cons b more => exact absurd (List.cons.inj hmore).2 hlf
    · obtain ⟨more, hmore⟩ := htail hline
      exact absurd hmore hlf

theorem Head.Spells.isTidy_iff {head : Head} {command : Bytes} {headers : List (Bytes × Bytes)}
    (h : head.Spells command headers) :
    (∀ line ∈ head.commandLine :: head.headerLines, IsTidy line) ↔
      cr ∉ command ∧ ∀ header ∈ headers, cr ∉ header.1 ++ colon :: header.2 := by
  rw [List.forall_mem_cons, h.opens.line.isTidy_iff]
  refine and_congr_right fun _ => ⟨fun htidy header hmem => ?_, fun hcr line hmem => ?_⟩
  · obtain ⟨line, hline, hheader⟩ := exists_left_of_mem h.headers hmem
    exact hheader.line.isTidy_iff.mp (htidy line hline)
  · obtain ⟨header, hheader, hline⟩ := exists_left_of_mem h.headers.flip hmem
    exact hline.line.isTidy_iff.mpr (hcr header hheader)

/-! ## The head again -/

section Again

variable {head : Head} {raw : RawFrame} {frame : Frame} {declared : Option Nat}

theorem legible_of_spells (hspells : head.Spells raw.command raw.headers)
    (hcommand : cr ∉ raw.command)
    (hheaders : ∀ header ∈ raw.headers, cr ∉ header.1 ++ colon :: header.2)
    (hframe : decodeFrame raw = .ok frame) : Legible frame := by
  obtain ⟨htext, hdecodes, -⟩ := decodeFrame_eq_ok_iff.mp hframe
  constructor
  · rw [← htext]
    exact opens_command hspells.opens.command_ne_nil (mt List.mem_of_head? hcommand)
      (mt List.mem_of_getLast? hcommand) hspells.opens.line.lf_notMem
  · intro written hwritten
    obtain ⟨header, hmem, rfl⟩ := List.mem_map.mp hwritten
    rw [sentHeaders_eq] at hmem
    cases hverbatim : frame.isVerbatim with
    | false => simpa only [rawHeader, encodeText_escaped] using lineSafe_escaped header
    | true =>
        rcases mem_received_headers hmem with hown | rfl
        · -- its bytes are those of a line that was read
          rw [hverbatim] at hdecodes
          obtain ⟨source, hsource, hdecode⟩ := exists_left_of_mem hdecodes hown
          obtain ⟨line, -, hline⟩ := exists_left_of_mem hspells.headers hsource
          rw [← decodeHeader_verbatim_iff.mp hdecode]
          refine hline.wholeLine.lineSafe fun hlast => hheaders source hsource ?_
          exact List.mem_append_right _ (List.mem_cons_of_mem _ (List.mem_of_getLast? hlast))
        · exact lineSafe_verbatim (verbatimSafe_added _)

/-! ## Bodies -/

theorem declaredLength_of_lacks (h : LacksLength frame)
    (hbound : frame.body.length ≤ 16 * 1024 * 1024) :
    declaredLength (rawHeaders frame) = .ok (some frame.body.length) := by
  have hword : 16 * 1024 * 1024 < Numeral.word64 := by decide
  have hnone : frame.headers.find? (DeclaresLength ·) = none := by
    simpa [List.find?_eq_none] using h.1
  have hfind : (sentHeaders frame).find? (DeclaresLength ·) =
      some ("content-length", Numeral.write frame.body.length) := by
    rw [sentHeaders_eq, received, if_pos h, Frame.addHeader, List.find?_append, hnone,
      Option.none_or]
    exact List.find?_cons_of_pos (by simpa using declaresLength_added _)
  exact declaredLength_of_write hfind rfl (by omega)

theorem exists_delimits {headEnd : Nat} (hframe : decodeFrame raw = .ok frame)
    (hplain : ∀ header ∈ raw.headers, lf ∉ header.2 ∧ cr ∉ header.2)
    (hdeclared : declaredLength raw.headers = .ok declared)
    (hdelimits : Delimits headEnd frame.body declared raw.body)
    (hbound : frame.body.length ≤ 16 * 1024 * 1024)
    (hsize : (encodeFrame frame).length < Numeral.word64) :
    ∃ length body, declaredLength (rawHeaders frame) = .ok length ∧
      Delimits (encodeHead frame).length frame.body length body := by
  obtain ⟨-, hheaders, -⟩ := decodeFrame_eq_ok_iff.mp hframe
  have hend : (encodeHead frame).length + frame.body.length + 1 < Numeral.word64 := by
    rwa [length_encodeFrame] at hsize
  by_cases hlacks : LacksLength frame
  · exact ⟨_, _, declaredLength_of_lacks hlacks hbound, .length hbound hend⟩
  · have hsame : rawHeaders frame = frame.headers.map (rawHeader frame.isVerbatim) := by
      rw [rawHeaders, sentHeaders_eq, received, if_neg hlacks]
    rw [hsame]
    exact ⟨_, _, declaredLength_decoded hheaders hplain hdeclared, hdelimits.of_headEnd hend⟩

theorem lacksLength_iff {headEnd : Nat} (hframe : decodeFrame raw = .ok frame)
    (hdeclared : declaredLength raw.headers = .ok declared)
    (hdelimits : Delimits headEnd frame.body declared raw.body) :
    LacksLength frame ↔ (∀ header ∈ frame.headers, ¬ DeclaresLength header) ∧
      ¬ ∃ text, Utf8.encode text = frame.body := by
  obtain ⟨-, hheaders, -⟩ := decodeFrame_eq_ok_iff.mp hframe
  rw [LacksLength]
  refine and_congr_right fun hnone => or_iff_right ?_
  rcases find?_decoded hheaders with ⟨hraw, -⟩ | ⟨source, header, -, hheader, -⟩
  · rw [declaredLength, hraw] at hdeclared
    obtain rfl := Except.ok.inj hdeclared
    exact hdelimits.nul_notMem
  · have hdeclares : DeclaresLength header := by simpa using List.find?_some hheader
    exact absurd hdeclares (hnone header (List.mem_of_find?_eq_some hheader))

theorem encodeFrame_received (frame : Frame) :
    encodeFrame (received frame) = encodeFrame frame := by
  rw [encodeFrame, encodeHead, sentHeaders_eq, received_received, encodeFrame, encodeHead,
    sentHeaders_eq, Frame.isVerbatim, Frame.isVerbatim, received_command, received_body]

/--
A frame that was read comes back from its own encoding, with nothing left over.  It gains a
length if it has none and its body is no text, and its encoding does not change again.  Its
head may hold carriage returns at the ends of lines only: within a value they would be
escaped.  The length of a buffer is a 64-bit word.
-/
theorem Item.decode_reencoded {input rest after command : Bytes} {headers : List (Bytes × Bytes)}
    (h : Item.decode input = .item (.frame frame) rest) (hinput : input = head.bytes ++ after)
    (hspells : head.Spells command headers)
    (htidy : ∀ line ∈ head.commandLine :: head.headerLines, IsTidy line)
    (hbound : frame.body.length ≤ 16 * 1024 * 1024)
    (hsize : (encodeFrame frame).length < Numeral.word64) :
    ∃ again, Item.decode (encodeFrame frame) = .item (.frame again) [] ∧
      again =
        (if (∀ header ∈ frame.headers, ¬ DeclaresLength header) ∧
            ¬ ∃ text, Utf8.encode text = frame.body then
          frame.addHeader "content-length" (Numeral.write frame.body.length)
        else frame) ∧
      encodeFrame again = encodeFrame frame := by
  obtain ⟨raw, hread, hframe⟩ := exists_read_of_decode h
  obtain ⟨found, content, tail, declared, hfound, -, hhead, hdeclared, hdelimits⟩ :=
    RawFrame.read_eq_complete_iff.mp hread
  obtain ⟨-, rfl, rfl, -⟩ := hspells.unique hhead (hinput.symm.trans hfound)
  obtain ⟨hcommand, hheaders⟩ := hspells.isTidy_iff.mp htidy
  obtain rfl : content = frame.body := by
    rw [← hdelimits.getD_body]
    exact (decodeFrame_eq_ok_iff.mp hframe).2.2
  have hlegible := legible_of_spells hspells hcommand hheaders hframe
  have hplain : ∀ header ∈ raw.headers, lf ∉ header.2 ∧ cr ∉ header.2 := by
    intro header hmem
    obtain ⟨line, -, hline⟩ := exists_left_of_mem hspells.headers hmem
    have hcr := hheaders header hmem
    simp only [List.mem_append, List.mem_cons, not_or] at hcr
    exact ⟨hline.wholeLine.lf_notMem_value, hcr.2.2⟩
  obtain ⟨length, body, hlength, hbody⟩ :=
    exists_delimits hframe hplain hdeclared hdelimits hbound hsize
  have hnothing : skipEol [] = [] := rfl
  have hagain : RawFrame.read (encodeHead frame ++ (frame.body ++ [nul])) =
      .complete ⟨Utf8.encode frame.command, rawHeaders frame, body⟩ [] := by
    rw [hlegible.read_eq, hlength]
    simp only [readBody_eq_complete_iff.mpr ⟨_, [], rfl, hnothing, hbody⟩, Reading.map]
  refine ⟨received frame, ?_, ?_, encodeFrame_received frame⟩
  · have hdecode := hlegible.decode_of_read hagain
    rw [hbody.getD_body, ← List.append_assoc] at hdecode
    rw [encodeFrame, hdecode, received_eq]
  · simp only [received, lacksLength_iff hframe hdeclared hdelimits]

end Again

def clutteredHead : Head where
  eols := Utf8.encode "\r\r\n\n"
  commandLine := Utf8.encode "MESSAGE\r\n"
  headerLines :=
    [Utf8.encode "a\\cb:x:y\r\n", Utf8.encode "Content-LENGTH:\t+02 \n",
      Utf8.encode "content-length:9\n"]
  blank := [cr, lf]

theorem spells_clutteredHead :
    clutteredHead.Spells (Utf8.encode "MESSAGE")
      [(Utf8.encode "a\\cb", Utf8.encode "x:y"),
        (Utf8.encode "Content-LENGTH", Utf8.encode "\t+02 "),
        (Utf8.encode "content-length", Utf8.encode "9")] where
  opens :=
    { eols := by decide +kernel
      head_ne_cr := by decide +kernel
      head_ne_lf := by decide +kernel
      line := ⟨by decide +kernel, .inl (by decide +kernel)⟩ }
  headers :=
    .cons ⟨⟨by decide +kernel, .inl (by decide +kernel)⟩, by decide +kernel⟩
      (.cons ⟨⟨by decide +kernel, .inr (by decide +kernel)⟩, by decide +kernel⟩
        (.cons ⟨⟨by decide +kernel, .inr (by decide +kernel)⟩, by decide +kernel⟩ .nil))
  blank := .inr rfl

def plainHead : Head where
  eols := []
  commandLine := Utf8.encode "CONNECTED\n"
  headerLines := [Utf8.encode "server:a\\b\n"]
  blank := [lf]

theorem spells_plainHead :
    plainHead.Spells (Utf8.encode "CONNECTED")
      [(Utf8.encode "server", Utf8.encode "a\\b")] where
  opens :=
    { eols := by decide +kernel
      head_ne_cr := by decide +kernel
      head_ne_lf := by decide +kernel
      line := ⟨by decide +kernel, .inr (by decide +kernel)⟩ }
  headers := .cons ⟨⟨by decide +kernel, .inr (by decide +kernel)⟩, by decide +kernel⟩ .nil
  blank := .inl rfl

theorem Item.decode_reencoded_cluttered :
    let cluttered : Frame :=
      ⟨"MESSAGE", [("a:b", "x:y"), ("Content-LENGTH", "\t+02 "), ("content-length", "9")],
        [0x00, 0xFF]⟩
    let binary : Frame := ⟨"CONNECTED", [("server", "a\\b")], [0xFF]⟩
    Item.decode (clutteredHead.bytes ++ [0x00, 0xFF, nul, cr, lf, 0x21]) =
        .item (.frame cluttered) [0x21] ∧
      (∀ line ∈ clutteredHead.commandLine :: clutteredHead.headerLines, IsTidy line) ∧
      (encodeFrame cluttered).length < Numeral.word64 ∧
      Item.decode (plainHead.bytes ++ [0xFF, nul]) = .item (.frame binary) [] ∧
      (∀ line ∈ plainHead.commandLine :: plainHead.headerLines, IsTidy line) ∧
      (encodeFrame binary).length < Numeral.word64 ∧
      Item.decode (encodeFrame cluttered) = .item (.frame cluttered) [] ∧
      Item.decode (encodeFrame binary) =
        .item (.frame ⟨"CONNECTED", [("server", "a\\b"), ("content-length", "1")], [0xFF]⟩) [] := by
  intro cluttered binary
  have hread : Item.decode (clutteredHead.bytes ++ [0x00, 0xFF, nul, cr, lf, 0x21]) =
      .item (.frame cluttered) [0x21] := by decide +kernel
  have htidy := spells_clutteredHead.isTidy_iff.mpr (by decide +kernel)
  have hsize : (encodeFrame cluttered).length < Numeral.word64 := by decide +kernel
  have hread' : Item.decode (plainHead.bytes ++ [0xFF, nul]) = .item (.frame binary) [] := by
    decide +kernel
  have htidy' := spells_plainHead.isTidy_iff.mpr (by decide +kernel)
  have hsize' : (encodeFrame binary).length < Numeral.word64 := by decide +kernel
  obtain ⟨again, hagain, hsame, -⟩ :=
    decode_reencoded hread rfl spells_clutteredHead htidy (by decide +kernel) hsize
  obtain ⟨again', hagain', hsame', -⟩ :=
    decode_reencoded hread' rfl spells_plainHead htidy' (by decide +kernel) hsize'
  rw [if_neg (by decide +kernel)] at hsame
  rw [if_pos (by decide +kernel)] at hsame'
  have hadded : binary.addHeader "content-length" (Numeral.write binary.body.length) =
      ⟨"CONNECTED", [("server", "a\\b"), ("content-length", "1")], [0xFF]⟩ := by decide +kernel
  rw [hadded] at hsame'
  rw [hsame] at hagain
  rw [hsame'] at hagain'
  exact ⟨hread, htidy, hsize, hread', htidy', hsize', hagain, hagain'⟩

end Stomp.Wire

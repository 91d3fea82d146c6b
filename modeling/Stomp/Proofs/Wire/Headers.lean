import Stomp.Proofs.Wire.Grammar
import Stomp.Proofs.Wire.WireSafe

/-!
# Headers on the wire

A header travels as its two texts, escaped where the command asks for it
(`decodeFrame_eq_ok_iff`).  Nothing in a header that is safe gets in the way of its
line (`lineSafe_received`), and it declares a length on the wire exactly if it does
in the frame (`declaredLength_received`).
-/

namespace Stomp.Wire

open Bytes

variable {verbatim : Bool} {part : HeaderPart} {bytes : Bytes} {text : String}

def rawHeader (verbatim : Bool) (header : Header) : Bytes × Bytes :=
  (encodeText verbatim header.1, encodeText verbatim header.2)

/-! ## Texts in headers -/

theorem escape_eq_self {text : String} (h : ∀ c ∈ text.toList, c ≠ '\\' ∧ ¬ isMark c) :
    escape text = text := by
  have hsame : text.toList.flatMap escapeChar = text.toList.flatMap fun c => [c] := by
    rw [List.flatMap_def, List.flatMap_def]
    refine congrArg List.flatten (List.map_congr_left fun c hc => ?_)
    obtain ⟨hbackslash, hmark⟩ := h c hc
    simp only [isMark, not_or] at hmark
    simp [escapeChar, hbackslash, hmark]
  rw [escape, hsame, List.flatMap_singleton', String.ofList_toList]

theorem encodeText_verbatim (text : String) : encodeText true text = Utf8.encode text := rfl

theorem encodeText_escaped (text : String) :
    encodeText false text = Utf8.encode (escape text) := rfl

theorem decodeText_verbatim (part : HeaderPart) (bytes : Bytes) :
    decodeText true part bytes = (Utf8.decode bytes).mapError (.headerNotText part) := rfl

theorem decodeText_escaped (part : HeaderPart) (bytes : Bytes) :
    decodeText false part bytes = (unescape bytes).mapError (.badEscape part) >>=
      fun plain => (Utf8.decode plain).mapError (.headerNotText part) := rfl

theorem decodeText_verbatim_iff : decodeText true part bytes = .ok text ↔
    bytes = Utf8.encode text := by
  rw [decodeText_verbatim, Except.mapError_eq_ok, Utf8.decode_eq_ok_iff, eq_comm]

theorem decodeText_escaped_iff : decodeText false part bytes = .ok text ↔
    unescape bytes = .ok (Utf8.encode text) := by
  simp only [decodeText_escaped, Except.bind_eq_ok, Except.mapError_eq_ok,
    Utf8.decode_eq_ok_iff, exists_eq_right']

theorem decodeText_encodeText (verbatim : Bool) (part : HeaderPart) (text : String) :
    decodeText verbatim part (encodeText verbatim text) = .ok text := by
  cases verbatim with
  | false => exact decodeText_escaped_iff.mpr (unescape_escape text)
  | true => exact decodeText_verbatim_iff.mpr rfl

theorem decodeHeader_eq_ok_iff {raw : Bytes × Bytes} {header : Header} :
    decodeHeader verbatim raw = .ok header ↔
      decodeText verbatim .key raw.1 = .ok header.1 ∧
        decodeText verbatim .value raw.2 = .ok header.2 := by
  constructor
  · intro h
    obtain ⟨key, hkey, h⟩ := Except.bind_eq_ok.mp h
    obtain ⟨value, hvalue, h⟩ := Except.bind_eq_ok.mp h
    obtain rfl := Except.ok.inj h
    exact ⟨hkey, hvalue⟩
  · rintro ⟨hkey, hvalue⟩
    exact Except.bind_eq_ok.mpr ⟨_, hkey, Except.bind_eq_ok.mpr ⟨_, hvalue, rfl⟩⟩

theorem decodeHeader_verbatim_iff {raw : Bytes × Bytes} {header : Header} :
    decodeHeader true raw = .ok header ↔ raw = rawHeader true header := by
  rw [decodeHeader_eq_ok_iff, decodeText_verbatim_iff, decodeText_verbatim_iff, Prod.ext_iff]
  rfl

/-- What the headers of a frame were read from. -/
def Decodes (verbatim : Bool) (raws : List (Bytes × Bytes)) (headers : List Header) : Prop :=
  List.Forall₂ (fun raw header => decodeHeader verbatim raw = .ok header) raws headers

theorem decodeFrame_eq_ok_iff {raw : RawFrame} {frame : Frame} :
    decodeFrame raw = .ok frame ↔
      raw.command = Utf8.encode frame.command ∧
        Decodes frame.isVerbatim raw.headers frame.headers ∧ raw.body.getD [] = frame.body := by
  constructor
  · intro h
    obtain ⟨command, hcommand, h⟩ := Except.bind_eq_ok.mp h
    obtain ⟨headers, hheaders, h⟩ := Except.bind_eq_ok.mp h
    obtain rfl := Except.ok.inj h
    rw [Except.mapError_eq_ok, Utf8.decode_eq_ok_iff] at hcommand
    exact ⟨hcommand.symm, Except.mapM_eq_ok.mp hheaders, rfl⟩
  · rintro ⟨hcommand, hheaders, hbody⟩
    have hdecode : Utf8.decode raw.command = .ok frame.command :=
      Utf8.decode_eq_ok_iff.mpr hcommand.symm
    refine Except.bind_eq_ok.mpr ⟨_, Except.mapError_eq_ok.mpr hdecode, ?_⟩
    refine Except.bind_eq_ok.mpr ⟨_, Except.mapM_eq_ok.mpr hheaders, ?_⟩
    rw [hbody]
    rfl

theorem decodeFrame_rawHeaders (command : String) (headers : List Header)
    (body : Option Bytes) :
    decodeFrame
        ⟨Utf8.encode command,
          headers.map (rawHeader (Frame.isVerbatimCommand command)), body⟩ =
      .ok ⟨command, headers, body.getD []⟩ := by
  refine decodeFrame_eq_ok_iff.mpr ⟨rfl, ?_, rfl⟩
  rw [Decodes, List.forall₂_map_left_iff, List.forall₂_same]
  exact fun header _ => decodeHeader_eq_ok_iff.mpr
    ⟨decodeText_encodeText _ _ _, decodeText_encodeText _ _ _⟩

/-! ## Safe lines -/

theorem lineSafe_verbatim {header : Header} (h : VerbatimSafe header) :
    LineSafe (Utf8.encode header.1) (Utf8.encode header.2) := by
  have hlf {text : String} (hmem : lf ∈ Utf8.encode text) : '\n' ∈ text.toList :=
    Utf8.mem_of_mem_encode (by decide) hmem
  have hcolon {text : String} (hmem : colon ∈ Utf8.encode text) : ':' ∈ text.toList :=
    Utf8.mem_of_mem_encode (by decide) hmem
  have hcr {text : String} (hlast : (Utf8.encode text).getLast? = some cr) :
      text.toList.getLast? = some '\r' := Utf8.getLast_of_encode (by decide) hlast
  exact
    { lf_notMem_key := mt hlf h.lf_notMem_name
      colon_notMem_key := mt hcolon h.colon_notMem_name
      lf_notMem_value := mt hlf h.lf_notMem_value
      getLast_value_ne_cr := mt hcr h.getLast_value_ne_cr }

theorem lineSafe_escaped (header : Header) :
    LineSafe (Utf8.encode (escape header.1)) (Utf8.encode (escape header.2)) := by
  have hfree (text : String) (b : UInt8) (hb : b.toNat < 0x80)
      (hmark : isMark (Char.ofNat b.toNat)) : b ∉ Utf8.encode (escape text) :=
    fun hmem => not_isMark_of_mem_escape (Utf8.mem_of_mem_encode hb hmem) hmark
  have hlf : isMark (Char.ofNat lf.toNat) := .inr (.inl rfl)
  have hcolon : isMark (Char.ofNat colon.toNat) := .inr (.inr rfl)
  have hcr : isMark (Char.ofNat cr.toNat) := .inl rfl
  exact
    { lf_notMem_key := hfree header.1 lf (by decide) hlf
      colon_notMem_key := hfree header.1 colon (by decide) hcolon
      lf_notMem_value := hfree header.2 lf (by decide) hlf
      getLast_value_ne_cr := fun hlast =>
        hfree header.2 cr (by decide) hcr (List.mem_of_getLast? hlast) }

theorem isVerbatim_iff (frame : Frame) :
    frame.isVerbatim = true ↔ frame.command ∈ ["CONNECT", "CONNECTED", "STOMP"] := by
  simp [Frame.isVerbatim, Frame.isVerbatimCommand, or_assoc]

theorem verbatimSafe_added (n : Nat) :
    VerbatimSafe ("content-length", Numeral.write n) where
  lf_notMem_name := by simp
  colon_notMem_name := by simp
  lf_notMem_value := Numeral.notMem_write (by decide) n
  getLast_value_ne_cr hlast :=
    Numeral.notMem_write (by decide) n (List.mem_of_getLast? hlast)

theorem lineSafe_received {frame : Frame} (h : WireSafe frame) :
    ∀ raw ∈ (received frame).headers.map (rawHeader frame.isVerbatim),
      LineSafe raw.1 raw.2 := by
  intro raw hraw
  obtain ⟨header, hmem, rfl⟩ := List.mem_map.mp hraw
  cases hverbatim : frame.isVerbatim with
  | false => simpa only [rawHeader, encodeText_escaped] using lineSafe_escaped header
  | true =>
      simp only [rawHeader, encodeText_verbatim]
      refine lineSafe_verbatim ?_
      rcases mem_received_headers hmem with hown | rfl
      · exact h.verbatim ((isVerbatim_iff frame).mp hverbatim) header hown
      · exact verbatimSafe_added _

/-! ## Lengths on the wire -/

theorem IsLengthName.plain {name : Bytes} (h : IsLengthName name) :
    ∀ b ∈ name, b ≠ backslash ∧ b ≠ lf ∧ b ≠ cr ∧ b ≠ colon := by
  have hnone : ∀ b ∈ [backslash, lf, cr, colon],
      lowerAscii b ∉ Utf8.encode "content-length" := by decide +kernel
  intro b hb
  have hlower : lowerAscii b ∈ Utf8.encode "content-length" :=
    h ▸ List.mem_map_of_mem hb
  refine ⟨?_, ?_, ?_, ?_⟩
  all_goals
    rintro rfl
    exact hnone _ (by simp) hlower

theorem declaresLength_iff_of_decodeText (h : decodeText verbatim part bytes = .ok text) :
    IsLengthName bytes ↔ text.toLower = "content-length" := by
  rw [← isContentLength_encode, isContentLength_iff]
  cases verbatim with
  | true => rw [decodeText_verbatim_iff.mp h]
  | false =>
      have hplain := decodeText_escaped_iff.mp h
      constructor
      · intro hname
        rw [unescape_eq_self fun hmem => (hname.plain _ hmem).1 rfl] at hplain
        rwa [← Except.ok.inj hplain]
      · intro hname
        rwa [eq_of_unescape hplain hname.plain]

theorem isContentLength_rawHeader (verbatim : Bool) (header : Header) :
    isContentLength (rawHeader verbatim header).1 = true ↔ DeclaresLength header :=
  isContentLength_iff.trans
    (declaresLength_iff_of_decodeText (decodeText_encodeText verbatim .key header.1))

theorem find?_isContentLength (verbatim : Bool) (headers : List Header) :
    (headers.map (rawHeader verbatim)).find? (fun raw => isContentLength raw.1) =
      (headers.find? (DeclaresLength ·)).map (rawHeader verbatim) := by
  have hnames : (fun raw => isContentLength raw.1) ∘ rawHeader verbatim =
      fun header => decide (DeclaresLength header) := by
    funext header
    rw [Function.comp_apply, Bool.eq_iff_iff, isContentLength_rawHeader, decide_eq_true_eq]
  rw [List.find?_map, hnames]

theorem encodeText_write (verbatim : Bool) (n : Nat) :
    encodeText verbatim (Numeral.write n) = Utf8.encode (Numeral.write n) := by
  cases verbatim with
  | true => rfl
  | false =>
      have hplain : ∀ c ∈ (Numeral.write n).toList, c ≠ '\\' ∧ ¬ isMark c := by
        intro c hc
        have hne : ∀ other, (∀ d < 10, Char.ofNat ('0'.toNat + d) ≠ other) → c ≠ other :=
          fun other hother hsame => Numeral.notMem_write hother n (hsame ▸ hc)
        refine ⟨hne _ (by decide), ?_⟩
        rintro (hcr | hlf | hcolon)
        · exact hne '\r' (by decide) hcr
        · exact hne '\n' (by decide) hlf
        · exact hne ':' (by decide) hcolon
      exact congrArg Utf8.encode (escape_eq_self hplain)

theorem declaredLength_of_write {verbatim : Bool} {headers : List Header} {header : Header}
    {n : Nat} (hfind : headers.find? (DeclaresLength ·) = some header)
    (hvalue : header.2 = Numeral.write n) (hbound : n < Numeral.word64) :
    declaredLength (headers.map (rawHeader verbatim)) = .ok (some n) := by
  rw [declaredLength, find?_isContentLength, hfind]
  simp only [Option.map_some, rawHeader, hvalue, encodeText_write, Utf8.decode_encode,
    Numeral.trim_write, Numeral.write_ne_empty, Numeral.read_write hbound]
  rfl

theorem declaredLength_received {frame : Frame} (h : WireSafe frame) :
    declaredLength ((received frame).headers.map (rawHeader frame.isVerbatim)) =
      .ok (((received frame).headers.find? (DeclaresLength ·)).map fun _ =>
        frame.body.length) := by
  cases hfind : (received frame).headers.find? (DeclaresLength ·) with
  | none =>
      rw [declaredLength, find?_isContentLength, hfind]
      rfl
  | some header =>
      have hbound : frame.body.length < Numeral.word64 := by
        have := h.bounded ⟨header, List.mem_of_find?_eq_some hfind,
          by simpa using List.find?_some hfind⟩
        have : 16 * 1024 * 1024 < Numeral.word64 := by decide
        omega
      exact declaredLength_of_write hfind (h.declared_received hfind) hbound

end Stomp.Wire

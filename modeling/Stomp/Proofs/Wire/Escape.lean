import Stomp.Proofs.Outcome
import Stomp.Proofs.Text.Utf8
import Stomp.Wire.Escape

/-!
# Escaped headers

Undoing the escapes of a text gives the bytes of the text back, and an escaped
text has none of the marks that end a line or cut a header.  What has none of these
marks is the escaped form of what it is undone to, so each text has one such form
(`escape_bijective`).
-/

namespace Stomp.Wire

open Bytes

/-! ## Undoing -/

theorem unescape_plain {plain : Bytes} (h : backslash ∉ plain) (rest : Bytes) :
    unescape (plain ++ rest) = (unescape rest).map (plain ++ ·) := by
  induction plain with
  | nil => cases hrest : unescape rest <;> simp [hrest, Except.map]
  | cons b plain ih =>
      rw [List.mem_cons, not_or] at h
      rw [List.cons_append, unescape.eq_def]
      simp only [if_neg (Ne.symm h.1), ih h.2]
      cases unescape rest <;> rfl

theorem unescape_eq_self {plain : Bytes} (h : backslash ∉ plain) : unescape plain = .ok plain := by
  have hplain := unescape_plain h []
  rw [List.append_nil] at hplain
  rw [hplain, unescape, Except.map, List.append_nil]

theorem escaped?_cases {c octet : UInt8} (h : escaped? c = some octet) :
    c = backslash ∧ octet = backslash ∨ c = 0x6E ∧ octet = lf ∨ c = 0x72 ∧ octet = cr ∨
      c = 0x63 ∧ octet = colon := by
  unfold escaped? at h
  split at h
  · next hc => exact .inl ⟨hc, (Option.some.inj h).symm⟩
  split at h
  · next hc => exact .inr (.inl ⟨hc, (Option.some.inj h).symm⟩)
  split at h
  · next hc => exact .inr (.inr (.inl ⟨hc, (Option.some.inj h).symm⟩))
  split at h
  · next hc => exact .inr (.inr (.inr ⟨hc, (Option.some.inj h).symm⟩))
  · simp at h

theorem eq_of_unescape {raw plain : Bytes} (h : unescape raw = .ok plain)
    (hplain : ∀ b ∈ plain, b ≠ backslash ∧ b ≠ lf ∧ b ≠ cr ∧ b ≠ colon) : raw = plain := by
  fun_induction unescape raw generalizing plain with
  | case1 => exact Except.ok.inj h
  | case2 => simp at h
  | case3 c rest octet hoctet ih =>
      obtain ⟨more, -, rfl⟩ := Except.map_eq_ok.mp h
      have hfree := hplain octet List.mem_cons_self
      rcases escaped?_cases hoctet with ⟨-, rfl⟩ | ⟨-, rfl⟩ | ⟨-, rfl⟩ | ⟨-, rfl⟩ <;>
        simp at hfree
  | case4 => simp at h
  | case5 b rest hb ih =>
      obtain ⟨more, hmore, rfl⟩ := Except.map_eq_ok.mp h
      rw [ih hmore fun c hc => hplain c (List.mem_cons_of_mem _ hc)]

/-! ## Octet by octet -/

def escapeOctet (b : UInt8) : Bytes :=
  if b = backslash then [backslash, backslash]
  else if b = cr then [backslash, 0x72]
  else if b = lf then [backslash, 0x6E]
  else if b = colon then [backslash, 0x63]
  else [b]

theorem escapeOctet_eq_self {b : UInt8} (hbackslash : b ≠ backslash) (hcr : b ≠ cr)
    (hlf : b ≠ lf) (hcolon : b ≠ colon) : escapeOctet b = [b] := by
  rw [escapeOctet, if_neg hbackslash, if_neg hcr, if_neg hlf, if_neg hcolon]

theorem escapeOctet_of_escaped? {c octet : UInt8} (h : escaped? c = some octet) :
    escapeOctet octet = [backslash, c] := by
  rcases escaped?_cases h with ⟨rfl, rfl⟩ | ⟨rfl, rfl⟩ | ⟨rfl, rfl⟩ | ⟨rfl, rfl⟩ <;> rfl

theorem encode_escapeChar (c : Char) :
    (escapeChar c).flatMap String.utf8EncodeChar =
      (String.utf8EncodeChar c).flatMap escapeOctet := by
  by_cases hbackslash : c = '\\'
  · subst hbackslash
    rfl
  by_cases hcr : c = '\r'
  · subst hcr
    rfl
  by_cases hlf : c = '\n'
  · subst hlf
    rfl
  by_cases hcolon : c = ':'
  · subst hcolon
    rfl
  · have hsame : escapeChar c = [c] := by simp [escapeChar, *]
    have hplain : ∀ b ∈ String.utf8EncodeChar c, escapeOctet b = [b] := by
      intro b hb
      have hne {mark : UInt8} (hascii : mark.toNat < 0x80) (hc : c ≠ Char.ofNat mark.toNat) :
          b ≠ mark := fun hmark => Utf8.notMem_encodeChar hascii hc (hmark ▸ hb)
      exact escapeOctet_eq_self (hne (by decide) hbackslash) (hne (by decide) hcr)
        (hne (by decide) hlf) (hne (by decide) hcolon)
    rw [hsame, List.flatMap_singleton, List.flatMap_def, List.map_congr_left hplain,
      ← List.flatMap_def, List.flatMap_singleton']

theorem encode_escape (text : String) :
    Utf8.encode (escape text) = (Utf8.encode text).flatMap escapeOctet := by
  rw [escape, Utf8.encode_ofList, Utf8.encode, List.flatMap_assoc, List.flatMap_assoc]
  simp only [encode_escapeChar]

theorem unescape_escapeOctet (b : UInt8) (rest : Bytes) :
    unescape (escapeOctet b ++ rest) = (unescape rest).map (b :: ·) := by
  by_cases hbackslash : b = backslash
  · subst hbackslash
    rfl
  by_cases hcr : b = cr
  · subst hcr
    rfl
  by_cases hlf : b = lf
  · subst hlf
    rfl
  by_cases hcolon : b = colon
  · subst hcolon
    rfl
  · rw [escapeOctet_eq_self hbackslash hcr hlf hcolon]
    exact unescape_plain (List.mem_singleton.not.mpr (Ne.symm hbackslash)) rest

theorem unescape_flatMap_escapeOctet (plain : Bytes) :
    unescape (plain.flatMap escapeOctet) = .ok plain := by
  induction plain with
  | nil => rfl
  | cons b plain ih =>
      rw [List.flatMap_cons, unescape_escapeOctet, ih]
      rfl

theorem unescape_escape (text : String) :
    unescape (Utf8.encode (escape text)) = .ok (Utf8.encode text) := by
  rw [encode_escape]
  exact unescape_flatMap_escapeOctet (Utf8.encode text)

theorem flatMap_escapeOctet_of_unescape {raw plain : Bytes} (h : unescape raw = .ok plain)
    (hcr : cr ∉ raw) (hlf : lf ∉ raw) (hcolon : colon ∉ raw) :
    plain.flatMap escapeOctet = raw := by
  fun_induction unescape raw generalizing plain with
  | case1 => rw [← Except.ok.inj h, List.flatMap_nil]
  | case2 => simp at h
  | case3 c rest octet hoctet ih =>
      obtain ⟨more, hmore, rfl⟩ := Except.map_eq_ok.mp h
      simp only [List.mem_cons, not_or] at hcr hlf hcolon
      rw [List.flatMap_cons, escapeOctet_of_escaped? hoctet,
        ih hmore hcr.2.2 hlf.2.2 hcolon.2.2]
      rfl
  | case4 => simp at h
  | case5 b rest hb ih =>
      obtain ⟨more, hmore, rfl⟩ := Except.map_eq_ok.mp h
      simp only [List.mem_cons, not_or] at hcr hlf hcolon
      rw [List.flatMap_cons, ih hmore hcr.2 hlf.2 hcolon.2,
        escapeOctet_eq_self hb (Ne.symm hcr.1) (Ne.symm hlf.1) (Ne.symm hcolon.1)]
      rfl

/-! ## Marks -/

def isMark (c : Char) : Prop := c = '\r' ∨ c = '\n' ∨ c = ':'

theorem not_isMark_of_mem_escape {text : String} {c : Char} (h : c ∈ (escape text).toList) :
    ¬ isMark c := by
  rw [escape, String.toList_ofList, List.mem_flatMap] at h
  obtain ⟨source, -, hc⟩ := h
  unfold escapeChar at hc
  repeat' split at hc
  all_goals
    simp only [List.mem_cons, List.not_mem_nil, or_false] at hc
    rcases hc with rfl | rfl <;> simp_all [isMark]

/-! ## What cannot be undone -/

/-- Octets of which each backslash is paired with the octet after it, whatever that is. -/
inductive Paired : Bytes → Prop
  | nil : Paired []
  | plain {b : UInt8} {rest : Bytes} (hb : b ≠ backslash) (hrest : Paired rest) :
      Paired (b :: rest)
  | pair {rest : Bytes} (c : UInt8) (hrest : Paired rest) : Paired (backslash :: c :: rest)

theorem escaped?_eq_none_iff {c : UInt8} :
    escaped? c = none ↔ c ∉ Utf8.encode "\\nrc" := by
  have hletters : Utf8.encode "\\nrc" = [backslash, 0x6E, 0x72, 0x63] := by decide
  rw [hletters, escaped?]
  simp only [List.mem_cons, List.not_mem_nil, or_false]
  split
  · simp [*]
  split
  · simp [*]
  split
  · simp [*]
  split
  · simp [*]
  · simp [*]

theorem unescape_eq_error_iff {raw : Bytes} :
    (∃ fault, unescape raw = .error fault) ↔
      ∃ before after, raw = before ++ backslash :: after ∧ Paired before ∧
        ∀ c ∈ after.head?, c ∉ Utf8.encode "\\nrc" := by
  constructor
  · rintro ⟨fault, h⟩
    fun_induction unescape raw with
    | case1 => simp at h
    | case2 => exact ⟨[], [], rfl, .nil, by simp⟩
    | case3 c rest octet hoctet ih =>
        obtain ⟨before, after, rfl, hpaired, hafter⟩ := ih (Except.map_eq_error.mp h)
        exact ⟨backslash :: c :: before, after, rfl, .pair c hpaired, hafter⟩
    | case4 c rest hnone =>
        refine ⟨[], c :: rest, rfl, .nil, fun other hother => ?_⟩
        rw [List.head?_cons, Option.mem_some_iff] at hother
        exact hother ▸ escaped?_eq_none_iff.mp hnone
    | case5 b rest hb ih =>
        obtain ⟨before, after, rfl, hpaired, hafter⟩ := ih (Except.map_eq_error.mp h)
        exact ⟨b :: before, after, rfl, .plain hb hpaired, hafter⟩
  · rintro ⟨before, after, rfl, hpaired, hafter⟩
    induction hpaired with
    | nil =>
        cases after with
        | nil => exact ⟨.unfinished, rfl⟩
        | cons c rest =>
            have hnone : escaped? c = none := escaped?_eq_none_iff.mpr (hafter c rfl)
            rw [List.nil_append, unescape, if_pos rfl]
            exact ⟨.unknown c, by simp only [hnone]⟩
    | @plain b rest hb _ ih =>
        obtain ⟨fault, hfault⟩ := ih
        rw [List.cons_append, unescape.eq_def]
        simp only [if_neg hb]
        exact ⟨fault, Except.map_eq_error.mpr hfault⟩
    | @pair rest c _ ih =>
        obtain ⟨fault, hfault⟩ := ih
        rw [List.cons_append, List.cons_append, unescape.eq_def]
        simp only [if_true]
        cases escaped? c with
        | none => exact ⟨.unknown c, rfl⟩
        | some octet => exact ⟨fault, Except.map_eq_error.mpr hfault⟩

/-! ## Text -/

theorem isAscii_of_escaped? {c octet : UInt8} (h : escaped? c = some octet) :
    c.toNat < 0x80 ∧ octet.toNat < 0x80 := by
  rcases escaped?_cases h with ⟨rfl, rfl⟩ | ⟨rfl, rfl⟩ | ⟨rfl, rfl⟩ | ⟨rfl, rfl⟩ <;> decide

theorem encodes_unescape_iff {raw plain : Bytes} (h : unescape raw = .ok plain) (before : Bytes) :
    (∃ text, Utf8.encode text = before ++ plain) ↔ ∃ text, Utf8.encode text = before ++ raw := by
  fun_induction unescape raw generalizing plain before with
  | case1 => rw [← Except.ok.inj h]
  | case2 => simp at h
  | case3 c rest octet hoctet ih =>
      obtain ⟨more, hmore, rfl⟩ := Except.map_eq_ok.mp h
      obtain ⟨hc, hoctet⟩ := isAscii_of_escaped? hoctet
      have hempty : ∃ text, Utf8.encode text = [] := ⟨"", rfl⟩
      have hsplit : (∃ text, Utf8.encode text = [] ++ c :: rest) ↔ _ := Utf8.encodes_ascii_iff hc
      have hpair : (∃ text, Utf8.encode text = c :: rest) ↔ ∃ text, Utf8.encode text = rest :=
        hsplit.trans (and_iff_right hempty)
      rw [Utf8.encodes_ascii_iff hoctet, Utf8.encodes_ascii_iff (by decide), hpair]
      exact and_congr_right fun _ => ih hmore []
  | case4 => simp at h
  | case5 b rest hb ih =>
      obtain ⟨more, hmore, rfl⟩ := Except.map_eq_ok.mp h
      rw [List.append_cons before b more, List.append_cons before b rest]
      exact ih hmore (before ++ [b])

/--
Escaping leaves no marks and is undone exactly; without marks, what can be undone to a text
is its escaped form.  Undoing fails at a backslash that is last or stands before an octet
that makes no escape, and it makes no text of what is none, nor the other way round.
-/
theorem escape_bijective :
    (∀ text : String,
        '\r' ∉ (escape text).toList ∧ '\n' ∉ (escape text).toList ∧
          ':' ∉ (escape text).toList ∧
          unescape (Utf8.encode (escape text)) = .ok (Utf8.encode text)) ∧
      (∀ (raw : Bytes) (text : String), cr ∉ raw → lf ∉ raw → colon ∉ raw →
        unescape raw = .ok (Utf8.encode text) → Utf8.encode (escape text) = raw) ∧
      (∀ raw : Bytes, (∃ fault, unescape raw = .error fault) ↔
        ∃ before after, raw = before ++ backslash :: after ∧ Paired before ∧
          ∀ c ∈ after.head?, c ∉ Utf8.encode "\\nrc") ∧
      ∀ raw plain : Bytes, unescape raw = .ok plain →
        ((∃ text, Utf8.encode text = plain) ↔ ∃ text, Utf8.encode text = raw) := by
  refine ⟨fun text => ?_, fun raw text hcr hlf hcolon h => ?_, fun raw => unescape_eq_error_iff,
    fun raw plain h => encodes_unescape_iff h []⟩
  · exact ⟨fun h => not_isMark_of_mem_escape h (.inl rfl),
      fun h => not_isMark_of_mem_escape h (.inr (.inl rfl)),
      fun h => not_isMark_of_mem_escape h (.inr (.inr rfl)), unescape_escape text⟩
  · rw [encode_escape, flatMap_escapeOctet_of_unescape h hcr hlf hcolon]

theorem escape_bijective_backslashes :
    let raw := Utf8.encode "é\\\\\\c\\\\n"
    let broken : Bytes := [0xC3, backslash, 0x63, 0xA9]
    cr ∉ raw ∧ lf ∉ raw ∧ colon ∉ raw ∧ unescape raw = .ok (Utf8.encode "é\\:\\n") ∧
      Utf8.encode (escape "é\\:\\n") = raw ∧
      unescape broken = .ok [0xC3, colon, 0xA9] ∧
      ((∃ text, Utf8.encode text = [0xC3, colon, 0xA9]) ↔ ∃ text, Utf8.encode text = broken) ∧
      ∃ fault, unescape (Utf8.encode "\\\\\\t") = .error fault := by
  intro raw broken
  have hcr : cr ∉ raw := by decide +kernel
  have hlf : lf ∉ raw := by decide +kernel
  have hcolon : colon ∉ raw := by decide +kernel
  have hraw : unescape raw = .ok (Utf8.encode "é\\:\\n") := by decide +kernel
  have hbroken : unescape broken = .ok [0xC3, colon, 0xA9] := by decide +kernel
  have hpaired : Paired (Utf8.encode "\\\\") := .pair _ .nil
  obtain ⟨-, hform, hfails, htext⟩ := escape_bijective
  have hfault : ∃ fault, unescape (Utf8.encode "\\\\\\t") = .error fault :=
    (hfails _).mpr
      ⟨Utf8.encode "\\\\", Utf8.encode "t", by decide +kernel, hpaired, by decide +kernel⟩
  exact ⟨hcr, hlf, hcolon, hraw, hform raw _ hcr hlf hcolon hraw, hbroken,
    htext broken _ hbroken, hfault⟩

end Stomp.Wire

import Stomp.Proofs.Text.Decimal
import Stomp.Proofs.Text.Utf8
import Stomp.Proofs.Wire.Lines

/-!
# The grammar of a frame

What a frame looks like on the wire, said without a reader.  A `Layout` is the
parts of a frame in the order in which they stand, and `Layout.Spells` says which
frame they spell; an input is `Garbled` if nothing that follows can make a frame
of it.  The reader accepts exactly what is spelled and refuses exactly what is
garbled (`RawFrame.read_by_grammar`).
-/

namespace Stomp.Wire

open Bytes

/-! ## Declared lengths -/

def IsLengthName (name : Bytes) : Prop :=
  name.map lowerAscii = Utf8.encode "content-length"

def DeclaresFirst (headers : List (Bytes × Bytes)) (value : Bytes) : Prop :=
  ∃ before name after, headers = before ++ (name, value) :: after ∧ IsLengthName name ∧
    ∀ header ∈ before, ¬ IsLengthName header.1

/-- A value that is text and names a number; blanks around it do not count. -/
def NamesNumber (value : Bytes) (n : Nat) : Prop :=
  ∃ text, value = Utf8.encode text ∧ Numeral.IsPadded text.toList n

theorem isContentLength_iff {name : Bytes} : isContentLength name = true ↔ IsLengthName name := by
  have hlower : (Utf8.encode contentLength).map lowerAscii = Utf8.encode "content-length" := by
    decide +kernel
  rw [isContentLength, sameIgnoringCase, beq_iff_eq, hlower, IsLengthName]

theorem declaredLength_of_none {headers : List (Bytes × Bytes)}
    (h : ∀ header ∈ headers, ¬ IsLengthName header.1) : declaredLength headers = .ok none := by
  have hfind : headers.find? (fun header => isContentLength header.1) = none := by
    simpa only [List.find?_eq_none, isContentLength_iff] using h
  rw [declaredLength, hfind]

section Declares

variable {headers : List (Bytes × Bytes)} {value : Bytes} {n : Nat}

theorem declaresFirst_iff :
    DeclaresFirst headers value ↔
      ∃ name, headers.find? (fun header => isContentLength header.1) = some (name, value) := by
  simp only [DeclaresFirst, List.find?_eq_some_iff_append, Bool.not_eq_true', ← Bool.not_eq_true,
    isContentLength_iff]
  constructor
  · rintro ⟨before, name, after, hsplit, hname, hbefore⟩
    exact ⟨name, hname, before, after, hsplit, hbefore⟩
  · rintro ⟨name, hname, before, after, hsplit, hbefore⟩
    exact ⟨before, name, after, hsplit, hname, hbefore⟩

theorem declares_cases (headers : List (Bytes × Bytes)) :
    (∀ header ∈ headers, ¬ IsLengthName header.1) ∨ ∃ value, DeclaresFirst headers value := by
  cases hfind : headers.find? fun header => isContentLength header.1 with
  | none =>
      left
      simpa only [List.find?_eq_none, isContentLength_iff] using hfind
  | some header => exact .inr ⟨header.2, declaresFirst_iff.mpr ⟨header.1, hfind⟩⟩

theorem namesNumber_encode {text : String} :
    NamesNumber (Utf8.encode text) n ↔ Numeral.IsPadded text.toList n := by
  constructor
  · rintro ⟨other, hsame, hother⟩
    rwa [Utf8.encode_inj.mp hsame]
  · exact fun hpadded => ⟨text, rfl, hpadded⟩

theorem DeclaresFirst.declaredLength_iff (h : DeclaresFirst headers value) :
    declaredLength headers = .ok (some n) ↔ NamesNumber value n ∧ n < Numeral.word64 := by
  obtain ⟨name, hfind⟩ := declaresFirst_iff.mp h
  simp only [declaredLength, hfind]
  cases hdecode : Utf8.decode value with
  | error defect =>
      have hno : ¬ NamesNumber value n := by
        rintro ⟨text, rfl, -⟩
        simp at hdecode
      simp [hno]
  | ok text =>
      obtain rfl := Utf8.decode_eq_ok_iff.mp hdecode
      rw [namesNumber_encode, ← Numeral.read_trim_eq_ok_iff (by decide)]
      dsimp only
      split
      · next hempty =>
          rw [String.isEmpty_iff.mp hempty]
          simp [Numeral.read]
      · cases Numeral.read Numeral.word64 (Text.trim text) <;> simp

theorem DeclaresFirst.declaredLength_ne_none (h : DeclaresFirst headers value) :
    declaredLength headers ≠ .ok none := by
  obtain ⟨name, hfind⟩ := declaresFirst_iff.mp h
  simp only [declaredLength, hfind]
  cases Utf8.decode value with
  | error defect => simp
  | ok text =>
      dsimp only
      split
      · simp
      · cases Numeral.read Numeral.word64 (Text.trim text) <;> simp

end Declares

/-! ## Frames -/

structure Head where
  eols : Bytes
  commandLine : Bytes
  headerLines : List Bytes
  blank : Bytes

namespace Head

def bytes (head : Head) : Bytes :=
  head.eols ++ head.commandLine ++ head.headerLines.flatten ++ head.blank

structure Spells (head : Head) (command : Bytes) (headers : List (Bytes × Bytes)) : Prop where
  opens : Opens head.eols head.commandLine command
  headers : List.Forall₂ IsHeaderLine head.headerLines headers
  blank : IsLineEnd head.blank

namespace Spells

variable {head head' : Head} {command command' : Bytes} {headers headers' : List (Bytes × Bytes)}

theorem readHeaders (h : head.Spells command headers) (after : Bytes) :
    readHeaders (head.headerLines.flatten ++ head.blank ++ after) = .complete headers after :=
  readHeaders_eq_complete_iff.mpr ⟨_, _, rfl, h.headers, h.blank⟩

theorem dropWhile (h : head.Spells command headers) (after : Bytes) :
    (head.bytes ++ after).dropWhile isEol =
      head.commandLine ++ (head.headerLines.flatten ++ head.blank ++ after) := by
  rw [← h.opens.dropWhile, bytes]
  simp only [List.append_assoc]

theorem unique {after after' : Bytes} (h : head.Spells command headers)
    (h' : head'.Spells command' headers') (hsame : head.bytes ++ after = head'.bytes ++ after') :
    head.bytes = head'.bytes ∧ command = command' ∧ headers = headers' ∧ after = after' := by
  have hskipped := h.dropWhile after
  rw [hsame, h'.dropWhile] at hskipped
  obtain ⟨-, rfl, htail⟩ := h'.opens.line.unique h.opens.line hskipped
  have hread := h.readHeaders after
  rw [← htail, h'.readHeaders] at hread
  obtain ⟨rfl, rfl⟩ := Reading.complete.inj hread
  exact ⟨List.append_cancel_right hsame, rfl, rfl, rfl⟩

end Spells

end Head

/-- The body of a frame as its headers delimit it, and what is made of it. -/
inductive IsBody (headers : List (Bytes × Bytes)) (body : Bytes) : Option Bytes → Prop
  | declared {value : Bytes} (first : DeclaresFirst headers value)
      (length : NamesNumber value body.length) (bound : body.length ≤ 16 * 1024 * 1024) :
      IsBody headers body (some body)
  | undeclared (length : ∀ header ∈ headers, ¬ IsLengthName header.1) (nul : nul ∉ body) :
      IsBody headers body (if body = [] then none else some body)

structure Layout where
  head : Head
  body : Bytes
  eol : Bytes

namespace Layout

def bytes (layout : Layout) : Bytes := layout.head.bytes ++ layout.body ++ nul :: layout.eol

/-- The frame that a layout spells where `rest` follows it. -/
structure Spells (layout : Layout) (raw : RawFrame) (rest : Bytes) : Prop where
  head : layout.head.Spells raw.command raw.headers
  body : IsBody raw.headers layout.body raw.body
  eol : TakesEol layout.eol rest

end Layout

/--
Why no frame can come of an input: a header line has no colon, what is declared is no
length, or no NUL stands behind the declared length.
-/
inductive Garbled : Bytes → Prop
  | line {eols commandLine command rest : Bytes} {lines : List Bytes}
      (opens : Opens eols commandLine command) (lacks : LacksColon lines) :
      Garbled (eols ++ commandLine ++ lines.flatten ++ rest)
  | length {head : Head} {command value rest : Bytes} {headers : List (Bytes × Bytes)}
      (spells : head.Spells command headers) (first : DeclaresFirst headers value)
      (unusable : ∀ n ≤ 16 * 1024 * 1024, ¬ NamesNumber value n) :
      Garbled (head.bytes ++ rest)
  | ending {head : Head} {command value body rest : Bytes} {headers : List (Bytes × Bytes)}
      {b : UInt8} (spells : head.Spells command headers) (first : DeclaresFirst headers value)
      (length : NamesNumber value body.length) (bound : body.length ≤ 16 * 1024 * 1024)
      (ne_nul : b ≠ nul) : Garbled (head.bytes ++ body ++ b :: rest)

section Bodies

variable {headers : List (Bytes × Bytes)} {headEnd length : Nat} {declared : Option Nat}
  {input content rest : Bytes} {body : Option Bytes} {cause : Malformed}

theorem readBody_of_length (bound : content.length ≤ 16 * 1024 * 1024)
    (hend : headEnd + content.length + 1 < Numeral.word64) (b : UInt8) (tail : Bytes) :
    readBody headEnd (some content.length) (content ++ b :: tail) =
      if b = nul then .complete (some content) (skipEol tail) else .malformed .unterminated := by
  have hbound : ¬ maxContentLength < content.length := Nat.not_lt.mpr bound
  simp only [readBody, if_neg hbound, if_neg (Nat.not_le.mpr hend), List.drop_left, List.take_left]

theorem readBody_length_cases (headEnd length : Nat) (input : Bytes) :
    (readBody headEnd (some length) input = .malformed (.lengthTooLarge length) ∧
        16 * 1024 * 1024 < length) ∨
      (readBody headEnd (some length) input = .malformed (.lengthUnreachable length) ∧
        length ≤ 16 * 1024 * 1024 ∧ Numeral.word64 ≤ headEnd + length + 1) ∨
      (readBody headEnd (some length) input = .incomplete ∧ input.length ≤ length) ∨
      ∃ content b tail, input = content ++ b :: tail ∧ content.length = length ∧
        length ≤ 16 * 1024 * 1024 ∧ headEnd + length + 1 < Numeral.word64 := by
  by_cases hbound : maxContentLength < length
  · exact .inl ⟨by simp only [readBody, if_pos hbound], hbound⟩
  have hle : length ≤ 16 * 1024 * 1024 := Nat.not_lt.mp hbound
  by_cases hend : Numeral.word64 ≤ headEnd + length + 1
  · exact .inr (.inl ⟨by simp only [readBody, if_neg hbound, if_pos hend], hle, hend⟩)
  cases hdrop : input.drop length with
  | nil =>
      refine .inr (.inr (.inl ⟨?_, List.drop_eq_nil_iff.mp hdrop⟩))
      simp only [readBody, if_neg hbound, if_neg hend, hdrop]
  | cons b tail =>
      have hlength : length ≤ input.length := by
        have := congrArg List.length hdrop
        rw [List.length_drop, List.length_cons] at this
        omega
      exact .inr (.inr (.inr ⟨input.take length, b, tail, by rw [← hdrop, List.take_append_drop],
        List.length_take_of_le hlength, hle, Nat.not_le.mp hend⟩))

/-- What a reader that knows the declared length takes for the body, up to its NUL. -/
inductive Delimits (headEnd : Nat) (content : Bytes) : Option Nat → Option Bytes → Prop
  | nul (nul : nul ∉ content) :
      Delimits headEnd content none (if content = [] then none else some content)
  | length (bound : content.length ≤ 16 * 1024 * 1024)
      (hend : headEnd + content.length + 1 < Numeral.word64) :
      Delimits headEnd content (some content.length) (some content)

theorem Delimits.getD_body (h : Delimits headEnd content declared body) :
    body.getD [] = content := by
  cases h with
  | nul => by_cases hempty : content = [] <;> simp [hempty]
  | length => rfl

theorem Delimits.length_eq (h : Delimits headEnd content (some length) body) :
    content.length = length := by
  cases h with
  | length => rfl

theorem Delimits.nul_notMem (h : Delimits headEnd content none body) : Bytes.nul ∉ content := by
  cases h with
  | nul hnul => exact hnul

theorem Delimits.of_headEnd {otherEnd : Nat} (h : Delimits headEnd content declared body)
    (hend : otherEnd + content.length + 1 < Numeral.word64) :
    Delimits otherEnd content declared body := by
  cases h with
  | nul hnul => exact .nul hnul
  | length bound => exact .length bound hend

theorem readBody_eq_complete_iff :
    readBody headEnd declared input = .complete body rest ↔
      ∃ content tail, input = content ++ nul :: tail ∧ skipEol tail = rest ∧
        Delimits headEnd content declared body := by
  constructor
  · intro h
    cases declared with
    | none =>
        cases hcut : cut? nul input with
        | none => simp [readBody, hcut] at h
        | some parts =>
            simp only [readBody, hcut, List.isEmpty_iff] at h
            obtain ⟨rfl, hrest⟩ := Reading.complete.inj h
            obtain ⟨hinput, hnul⟩ := cut?_eq_some_iff.mp hcut
            exact ⟨parts.1, parts.2, hinput, hrest, .nul hnul⟩
    | some length =>
        rcases readBody_length_cases headEnd length input with
          ⟨hread, -⟩ | ⟨hread, -⟩ | ⟨hread, -⟩ | ⟨content, b, tail, rfl, rfl, hbound, hend⟩
        · simp [hread] at h
        · simp [hread] at h
        · simp [hread] at h
        · rw [readBody_of_length hbound hend] at h
          split at h
          · next hb =>
              obtain ⟨rfl, hrest⟩ := Reading.complete.inj h
              exact ⟨content, tail, by rw [hb], hrest, .length hbound hend⟩
          · simp at h
  · rintro ⟨content, tail, rfl, rfl, hdelimits⟩
    cases hdelimits with
    | nul hnul => simp only [readBody, cut?_eq_some_iff.mpr ⟨rfl, hnul⟩, List.isEmpty_iff]
    | length bound hend => rw [readBody_of_length bound hend, if_pos rfl]

theorem IsBody.delimits (h : IsBody headers content body)
    (hend : headEnd + content.length + 1 < Numeral.word64) :
    ∃ declared, declaredLength headers = .ok declared ∧
      Delimits headEnd content declared body := by
  cases h with
  | declared first length bound =>
      exact ⟨_, first.declaredLength_iff.mpr ⟨length, by omega⟩, .length bound hend⟩
  | undeclared length nul => exact ⟨none, declaredLength_of_none length, .nul nul⟩

theorem Delimits.isBody (h : Delimits headEnd content declared body)
    (hdeclared : declaredLength headers = .ok declared) : IsBody headers content body := by
  rcases declares_cases headers with hnone | ⟨value, first⟩
  · rw [declaredLength_of_none hnone] at hdeclared
    obtain rfl := Except.ok.inj hdeclared
    cases h with
    | nul hnul => exact .undeclared hnone hnul
  · cases h with
    | nul => exact absurd hdeclared first.declaredLength_ne_none
    | length bound => exact .declared first (first.declaredLength_iff.mp hdeclared).1 bound

theorem garbled_of_readBody (hdeclared : declaredLength headers = .ok declared)
    (hend : headEnd + 16 * 1024 * 1024 + 1 < Numeral.word64)
    (h : readBody headEnd declared input = .malformed cause) :
    ∃ value, DeclaresFirst headers value ∧
      ((∀ n ≤ 16 * 1024 * 1024, ¬ NamesNumber value n) ∨
        ∃ content b tail, input = content ++ b :: tail ∧ b ≠ nul ∧
          NamesNumber value content.length ∧ content.length ≤ 16 * 1024 * 1024) := by
  have hword : 16 * 1024 * 1024 < Numeral.word64 := by decide
  rcases declares_cases headers with hnone | ⟨value, first⟩
  · rw [declaredLength_of_none hnone] at hdeclared
    obtain rfl := Except.ok.inj hdeclared
    cases hcut : cut? nul input <;> simp [readBody, hcut] at h
  · refine ⟨value, first, ?_⟩
    cases declared with
    | none => exact absurd hdeclared first.declaredLength_ne_none
    | some length =>
        obtain ⟨hlength, -⟩ := first.declaredLength_iff.mp hdeclared
        rcases readBody_length_cases headEnd length input with
          ⟨-, hlarge⟩ | ⟨-, hle, hfar⟩ | ⟨hread, -⟩ | ⟨content, b, tail, rfl, rfl, hbound, hreach⟩
        · left
          intro n hn hother
          have hsame := first.declaredLength_iff.mpr ⟨hother, by omega⟩
          rw [hdeclared, Except.ok.injEq, Option.some.injEq] at hsame
          omega
        · omega
        · simp [hread] at h
        · rw [readBody_of_length hbound hreach] at h
          have hb : b ≠ nul := by
            rintro rfl
            simp at h
          exact .inr ⟨content, b, tail, rfl, hb, hlength, hbound⟩

end Bodies

namespace RawFrame

variable {input rest : Bytes} {raw : RawFrame}

theorem read_of_spells {head : Head} {command : Bytes} {headers : List (Bytes × Bytes)}
    (h : head.Spells command headers) (after : Bytes) :
    read (head.bytes ++ after) =
      match declaredLength headers with
      | .error cause => .malformed cause
      | .ok declared =>
          (readBody head.bytes.length declared after).map (⟨command, headers, ·⟩) := by
  have hbytes : head.bytes ++ after = head.eols ++ head.commandLine ++
      (head.headerLines.flatten ++ head.blank ++ after) := by
    simp only [Head.bytes, List.append_assoc]
  have hend : (head.bytes ++ after).length - after.length = head.bytes.length := by simp
  rw [← hend, hbytes, read_of_opens h.opens, readTail, h.readHeaders]
  rfl

theorem read_of_lacksColon {eols commandLine command : Bytes} {lines : List Bytes}
    (hopens : Opens eols commandLine command) (hlacks : LacksColon lines) (rest : Bytes) :
    ∃ cause, read (eols ++ commandLine ++ lines.flatten ++ rest) = .malformed cause := by
  obtain ⟨cause, hcause⟩ := hlacks.readHeaders rest
  refine ⟨cause, ?_⟩
  rw [List.append_assoc, read_of_opens hopens, readTail, hcause]
  rfl

/-- What is more than a beginning has a whole head, or a line in the way of one. -/
theorem head_cases (h : read input ≠ .incomplete) :
    (∃ head command headers after, input = head.bytes ++ after ∧
        Head.Spells head command headers) ∨
      ∃ eols commandLine command lines rest,
        input = eols ++ commandLine ++ List.flatten lines ++ rest ∧
          Opens eols commandLine command ∧ LacksColon lines := by
  obtain ⟨eols, commandLine, command, after, hopens, rfl⟩ := opens_of_read h
  rw [read_of_opens hopens, readTail] at h
  cases hheaders : readHeaders after with
  | incomplete => simp [hheaders, Reading.bind] at h
  | malformed cause =>
      obtain ⟨lines, rest, rfl, hlacks⟩ := exists_lacksColon_of_readHeaders hheaders
      exact .inr ⟨eols, commandLine, command, lines, rest, by simp, hopens, hlacks⟩
  | complete headers rest =>
      obtain ⟨lines, blank, rfl, hlines, hblank⟩ := readHeaders_eq_complete_iff.mp hheaders
      refine .inl ⟨⟨eols, commandLine, lines, blank⟩, command, headers, rest, ?_, ?_⟩
      · simp [Head.bytes]
      · exact ⟨hopens, hlines, hblank⟩

theorem read_eq_complete_iff :
    read input = .complete raw rest ↔
      ∃ (head : Head) (content tail : Bytes) (declared : Option Nat),
        input = head.bytes ++ (content ++ nul :: tail) ∧ skipEol tail = rest ∧
          head.Spells raw.command raw.headers ∧ declaredLength raw.headers = .ok declared ∧
          Delimits head.bytes.length content declared raw.body := by
  constructor
  · intro h
    have hread : read input ≠ .incomplete := by simp [h]
    rcases head_cases hread with
      ⟨head, command, headers, after, rfl, hhead⟩ |
      ⟨eols, commandLine, command, lines, after, rfl, hopens, hlacks⟩
    · rw [read_of_spells hhead] at h
      split at h
      · simp at h
      · next declared hdeclared =>
          obtain ⟨body, hbody, rfl⟩ := Reading.map_eq_complete.mp h
          obtain ⟨content, tail, rfl, hrest, hdelimits⟩ := readBody_eq_complete_iff.mp hbody
          exact ⟨head, content, tail, declared, rfl, hrest, hhead, hdeclared, hdelimits⟩
    · obtain ⟨cause, hcause⟩ := read_of_lacksColon hopens hlacks after
      rw [hcause] at h
      simp at h
  · rintro ⟨head, content, tail, declared, rfl, hrest, hhead, hdeclared, hdelimits⟩
    rw [read_of_spells hhead, hdeclared]
    simp only [readBody_eq_complete_iff.mpr ⟨_, _, rfl, hrest, hdelimits⟩, Reading.map]

theorem spells_of_read (h : read input = .complete raw rest) :
    ∃ layout : Layout, input = layout.bytes ++ rest ∧ layout.Spells raw rest := by
  obtain ⟨head, content, tail, declared, rfl, hrest, hhead, hdeclared, hdelimits⟩ :=
    read_eq_complete_iff.mp h
  obtain ⟨eol, rfl, heol⟩ := skipEol_eq_iff.mp hrest
  exact ⟨⟨head, content, eol⟩, by simp [Layout.bytes], hhead, hdelimits.isBody hdeclared, heol⟩

theorem read_of_layout {layout : Layout} (h : layout.Spells raw rest)
    (hsize : layout.bytes.length < Numeral.word64) :
    read (layout.bytes ++ rest) = .complete raw rest := by
  have hend : layout.head.bytes.length + layout.body.length + 1 < Numeral.word64 := by
    rw [Layout.bytes, List.length_append, List.length_append, List.length_cons] at hsize
    omega
  have hrest : skipEol (layout.eol ++ rest) = rest := skipEol_eq_iff.mpr ⟨_, rfl, h.eol⟩
  obtain ⟨declared, hdeclared, hdelimits⟩ := h.body.delimits hend
  exact read_eq_complete_iff.mpr ⟨layout.head, layout.body, layout.eol ++ rest, declared,
    by simp [Layout.bytes], hrest, h.head, hdeclared, hdelimits⟩

theorem garbled_of_read {cause : Malformed} (hsize : input.length < 2 ^ 63)
    (h : read input = .malformed cause) : Garbled input := by
  have hword : 2 ^ 63 + 16 * 1024 * 1024 + 1 < Numeral.word64 := by decide
  have hread : read input ≠ .incomplete := by simp [h]
  rcases head_cases hread with
    ⟨head, command, headers, after, rfl, hhead⟩ |
    ⟨eols, commandLine, command, lines, after, rfl, hopens, hlacks⟩
  · rw [List.length_append] at hsize
    rw [read_of_spells hhead] at h
    split at h
    · next cause' hcause =>
        rcases declares_cases headers with hnone | ⟨value, first⟩
        · simp [declaredLength_of_none hnone] at hcause
        refine .length hhead first fun n hn hnumber => ?_
        rw [first.declaredLength_iff.mpr ⟨hnumber, by omega⟩] at hcause
        simp at hcause
    · next declared hdeclared =>
        have hbody := Reading.map_eq_malformed.mp h
        obtain ⟨value, first, hunusable | ⟨content, b, tail, rfl, hb, hlength, hbound⟩⟩ :=
          garbled_of_readBody hdeclared (by omega) hbody
        · exact .length hhead first hunusable
        · rw [← List.append_assoc]
          exact .ending hhead first hlength hbound hb
  · exact .line hopens hlacks

theorem read_of_garbled (hsize : input.length < 2 ^ 63) (h : Garbled input) :
    ∃ cause, read input = .malformed cause := by
  have hword : 2 ^ 63 + 16 * 1024 * 1024 + 1 < Numeral.word64 := by decide
  cases h with
  | line hopens hlacks => exact read_of_lacksColon hopens hlacks _
  | @length head command value rest headers hhead first hunusable =>
      rw [read_of_spells hhead]
      cases hdeclared : declaredLength headers with
      | error cause => exact ⟨cause, rfl⟩
      | ok declared =>
          cases declared with
          | none => exact absurd hdeclared first.declaredLength_ne_none
          | some length =>
              obtain ⟨hnumber, -⟩ := first.declaredLength_iff.mp hdeclared
              have hlarge : maxContentLength < length :=
                Nat.lt_of_not_le fun hle => hunusable length hle hnumber
              exact ⟨.lengthTooLarge length, by simp only [readBody, if_pos hlarge, Reading.map]⟩
  | @ending head command value body rest headers b hhead first hlength hbound hb =>
      rw [List.append_assoc, List.length_append] at hsize
      have hend : head.bytes.length + body.length + 1 < Numeral.word64 := by omega
      refine ⟨.unterminated, ?_⟩
      rw [List.append_assoc, read_of_spells hhead,
        first.declaredLength_iff.mpr ⟨hlength, by omega⟩]
      simp only [readBody_of_length hbound hend, if_neg hb, Reading.map]

/--
A frame is read exactly if the bytes before the rest spell it, and an input is refused
exactly if it is garbled; of every other input more is needed.  A byte string in memory
has less than 2 ^ 63 bytes.
-/
theorem read_by_grammar (hsize : input.length < 2 ^ 63) :
    (∀ raw rest, read input = .complete raw rest ↔
        ∃ layout : Layout, input = layout.bytes ++ rest ∧ layout.Spells raw rest) ∧
      ((∃ cause, read input = .malformed cause) ↔ Garbled input) ∧
      (read input = .incomplete ↔
        (¬ ∃ (layout : Layout) (raw : RawFrame) (rest : Bytes),
            input = layout.bytes ++ rest ∧ layout.Spells raw rest) ∧
          ¬ Garbled input) := by
  have hcomplete (raw : RawFrame) (rest : Bytes) : read input = .complete raw rest ↔
      ∃ layout : Layout, input = layout.bytes ++ rest ∧ layout.Spells raw rest := by
    constructor
    · exact spells_of_read
    · rintro ⟨layout, rfl, hspells⟩
      have hword : 2 ^ 63 < Numeral.word64 := by decide
      rw [List.length_append] at hsize
      exact read_of_layout hspells (by omega)
  have hmalformed : (∃ cause, read input = .malformed cause) ↔ Garbled input :=
    ⟨fun ⟨_, h⟩ => garbled_of_read hsize h, read_of_garbled hsize⟩
  refine ⟨hcomplete, hmalformed, ?_⟩
  rw [← hmalformed]
  constructor
  · intro h
    refine ⟨?_, by simp [h]⟩
    rintro ⟨layout, raw, rest, hspells⟩
    simp [(hcomplete raw rest).mpr ⟨layout, hspells⟩] at h
  · rintro ⟨hnone, hread⟩
    cases h : read input with
    | incomplete => rfl
    | malformed cause => exact absurd ⟨cause, h⟩ hread
    | complete raw rest =>
        obtain ⟨layout, hspells⟩ := (hcomplete raw rest).mp h
        exact absurd ⟨layout, raw, rest, hspells⟩ hnone

def paddedHead : Bytes :=
  Utf8.encode "\r\n\nMESSAGE\r\nContent-LENGTH:\t+02 \ncontent-length:9\na:b:c\r\n\r\n"

theorem read_by_grammar_padded :
    (paddedHead ++ [nul, 0xFF, nul, cr, lf, lf]).length < 2 ^ 63 ∧
      (paddedHead ++ [nul, 0xFF, 0x21]).length < 2 ^ 63 ∧
      (∃ layout : Layout, paddedHead ++ [nul, 0xFF, nul, cr, lf, lf] = layout.bytes ++ [lf] ∧
        layout.Spells
          ⟨Utf8.encode "MESSAGE",
            [(Utf8.encode "Content-LENGTH", Utf8.encode "\t+02 "),
              (Utf8.encode "content-length", Utf8.encode "9"),
              (Utf8.encode "a", Utf8.encode "b:c")],
            some [nul, 0xFF]⟩ [lf]) ∧
      Garbled (paddedHead ++ [nul, 0xFF, 0x21]) := by
  have hwhole : (paddedHead ++ [nul, 0xFF, nul, cr, lf, lf]).length < 2 ^ 63 := by decide +kernel
  have hbroken : (paddedHead ++ [nul, 0xFF, 0x21]).length < 2 ^ 63 := by decide +kernel
  have hread : read (paddedHead ++ [nul, 0xFF, 0x21]) = .malformed .unterminated := by
    decide +kernel
  exact ⟨hwhole, hbroken, ((read_by_grammar hwhole).1 _ _).mp (by decide +kernel),
    (read_by_grammar hbroken).2.1.mp ⟨_, hread⟩⟩

end RawFrame

end Stomp.Wire

import Stomp.Text.Blank
import Stomp.Text.Numeral
import Stomp.Text.Quoted
import Stomp.Text.Utf8

/-!
# Raw frames

The grammar of a frame on the wire, before names and values become text: line
ends, a command line, header lines, a blank line, a body, a NUL and at most one
line end after it.  A body ends at the first NUL unless the head declares its
length.
-/

namespace Stomp.Wire

open Bytes

structure RawFrame where
  command : Bytes
  headers : List (Bytes × Bytes)
  /-- Nothing stands for an empty body whose length was not declared. -/
  body : Option Bytes
  deriving DecidableEq, Repr

/-! ## Outcomes -/

inductive Malformed where
  | emptyCommand
  | noColon (line : Bytes)
  | lengthNotText (defect : Utf8.Defect)
  | lengthEmpty
  | lengthUnreadable (text : String) (fault : Numeral.Fault)
  | lengthTooLarge (length : Nat)
  /-- The end of the frame lies beyond the last 64-bit position. -/
  | lengthUnreachable (length : Nat)
  | unterminated
  deriving DecidableEq, Repr

def Malformed.message : Malformed → String
  | .emptyCommand => "empty command line"
  | .noColon line =>
      "malformed header line: " ++ Quoted.quote (Utf8.decodeLossy line)
  | .lengthNotText defect => s!"content-length not utf8: {defect.message}"
  | .lengthEmpty => "empty content-length"
  | .lengthUnreadable text fault =>
      s!"invalid content-length '{text}': {fault.message}"
  | .lengthTooLarge length => s!"content-length too large: {length}"
  | .lengthUnreachable length => s!"content-length too large: {length}"
  | .unterminated => "missing NUL terminator after content-length body"

inductive Reading (α : Type) where
  | incomplete
  | complete (value : α) (rest : Bytes)
  | malformed (cause : Malformed)
  deriving DecidableEq, Repr

namespace Reading

variable {α β : Type}

def map (f : α → β) : Reading α → Reading β
  | .incomplete => .incomplete
  | .complete value rest => .complete (f value) rest
  | .malformed cause => .malformed cause

def bind (reading : Reading α) (next : α → Bytes → Reading β) : Reading β :=
  match reading with
  | .incomplete => .incomplete
  | .complete value rest => next value rest
  | .malformed cause => .malformed cause

end Reading

/-! ## Line ends -/

def afterEol? : Bytes → Option Bytes
  | lf :: rest => some rest
  | cr :: lf :: rest => some rest
  | _ => none

def skipEol (input : Bytes) : Bytes := (afterEol? input).getD input

theorem afterEol?_length {input rest : Bytes} (h : afterEol? input = some rest) :
    rest.length < input.length := by
  unfold afterEol? at h
  split at h
  · obtain rfl := Option.some.inj h
    simp
  · obtain rfl := Option.some.inj h
    simp only [List.length_cons]
    omega
  · simp at h

theorem skipEol_length (input : Bytes) : (skipEol input).length ≤ input.length := by
  unfold skipEol
  cases h : afterEol? input with
  | none => simp
  | some rest => simpa using Nat.le_of_lt (afterEol?_length h)

/-! ## The head -/

def readHeaders (input : Bytes) : Reading (List (Bytes × Bytes)) :=
  match afterEol? input with
  | some rest => .complete [] rest
  | none =>
      match _hcut : cut? lf input with
      | none => .incomplete
      | some (line, rest) =>
          match cut? colon (chomp line) with
          | none => .malformed (.noColon (chomp line))
          | some header => (readHeaders rest).map (header :: ·)
  termination_by input.length
  decreasing_by
    have := cut?_length _hcut
    omega

theorem readHeaders_eq (input : Bytes) :
    readHeaders input =
      match afterEol? input with
      | some rest => .complete [] rest
      | none =>
          match cut? lf input with
          | none => .incomplete
          | some (line, rest) =>
              match cut? colon (chomp line) with
              | none => .malformed (.noColon (chomp line))
              | some header => (readHeaders rest).map (header :: ·) := by
  rw [readHeaders.eq_def]
  cases afterEol? input with
  | some rest => rfl
  | none =>
      dsimp only
      split <;> simp_all

def contentLength : String := "content-length"

def isContentLength (name : Bytes) : Bool :=
  sameIgnoringCase name (Utf8.encode contentLength)

def declaredLength (headers : List (Bytes × Bytes)) : Except Malformed (Option Nat) :=
  match headers.find? fun header => isContentLength header.1 with
  | none => .ok none
  | some (_, value) =>
      match Utf8.decode value with
      | .error defect => .error (.lengthNotText defect)
      | .ok text =>
          let trimmed := Text.trim text
          if trimmed.isEmpty then .error .lengthEmpty
          else
            match Numeral.read Numeral.word64 trimmed with
            | .error fault => .error (.lengthUnreadable trimmed fault)
            | .ok length => .ok (some length)

/-! ## The body -/

/-- The longest body that a head may declare: 16 MiB. -/
def maxContentLength : Nat := 16 * 1024 * 1024

/-- The body and its NUL, and the line end that may follow.  The head ends at position `headEnd`. -/
def readBody (headEnd : Nat) (declared : Option Nat) (input : Bytes) :
    Reading (Option Bytes) :=
  match declared with
  | none =>
      match cut? nul input with
      | none => .incomplete
      | some (body, rest) =>
          .complete (if body.isEmpty then none else some body) (skipEol rest)
  | some length =>
      if maxContentLength < length then .malformed (.lengthTooLarge length)
      else if Numeral.word64 ≤ headEnd + length + 1 then
        .malformed (.lengthUnreachable length)
      else
        match input.drop length with
        | [] => .incomplete
        | b :: rest =>
            if b = nul then .complete (some (input.take length)) (skipEol rest)
            else .malformed .unterminated

/-! ## The frame -/

namespace RawFrame

def readTail (total : Nat) (command : Bytes) (input : Bytes) : Reading RawFrame :=
  (readHeaders input).bind fun headers rest =>
    match declaredLength headers with
    | .error cause => .malformed cause
    | .ok declared =>
        (readBody (total - rest.length) declared rest).map (⟨command, headers, ·⟩)

/-- One frame from the front of a byte string; line ends before it are skipped. -/
def read (input : Bytes) : Reading RawFrame :=
  match cut? lf (input.dropWhile isEol) with
  | none => .incomplete
  | some (line, rest) =>
      if (chomp line).isEmpty then .malformed .emptyCommand
      else readTail input.length (chomp line) rest

end RawFrame

/-! ## What is left is shorter -/

theorem readHeaders_length {input rest : Bytes} {headers : List (Bytes × Bytes)}
    (h : readHeaders input = .complete headers rest) : rest.length < input.length := by
  fun_induction readHeaders input generalizing headers with
  | case1 input rest' heol =>
      obtain ⟨-, rfl⟩ := Reading.complete.inj h
      exact afterEol?_length heol
  | case2 => simp at h
  | case3 => simp at h
  | case4 input heol line rest' hcut header hcolon ih =>
      cases hrest : readHeaders rest' with
      | incomplete => simp [hrest, Reading.map] at h
      | malformed cause => simp [hrest, Reading.map] at h
      | complete more last =>
          simp only [hrest, Reading.map, Reading.complete.injEq] at h
          obtain ⟨-, rfl⟩ := h
          have hlt := ih hrest
          have hlen := cut?_length hcut
          omega

theorem readBody_length {headEnd : Nat} {declared : Option Nat}
    {input rest : Bytes} {body : Option Bytes}
    (h : readBody headEnd declared input = .complete body rest) :
    rest.length < input.length := by
  cases declared with
  | none =>
      cases hcut : cut? nul input with
      | none => simp [readBody, hcut] at h
      | some parts =>
          simp only [readBody, hcut, Reading.complete.injEq] at h
          obtain ⟨-, rfl⟩ := h
          have hle := skipEol_length parts.2
          have hlen := cut?_length hcut
          omega
  | some length =>
      simp only [readBody] at h
      split at h
      · simp at h
      split at h
      · simp at h
      cases hdrop : input.drop length with
      | nil => simp [hdrop] at h
      | cons b after =>
          simp only [hdrop] at h
          split at h
          · obtain ⟨-, rfl⟩ := Reading.complete.inj h
            have hle := skipEol_length after
            have hlen := congrArg List.length hdrop
            simp at hlen
            omega
          · simp at h

theorem RawFrame.read_length {input rest : Bytes} {raw : RawFrame}
    (h : RawFrame.read input = .complete raw rest) : rest.length < input.length := by
  unfold RawFrame.read at h
  have hskip : (input.dropWhile isEol).length ≤ input.length :=
    (List.dropWhile_sublist _).length_le
  cases hcut : cut? lf (input.dropWhile isEol) with
  | none => simp [hcut] at h
  | some parts =>
      have hline := cut?_length hcut
      simp only [hcut] at h
      split at h
      · simp at h
      cases hhead : readHeaders parts.2 with
      | incomplete => simp [RawFrame.readTail, hhead, Reading.bind] at h
      | malformed cause => simp [RawFrame.readTail, hhead, Reading.bind] at h
      | complete headers after =>
          have hlt := readHeaders_length hhead
          simp only [RawFrame.readTail, hhead, Reading.bind] at h
          split at h
          · simp at h
          rename_i declared _
          cases hbody : readBody (input.length - after.length) declared after with
          | incomplete => simp [hbody, Reading.map] at h
          | malformed cause => simp [hbody, Reading.map] at h
          | complete body last =>
              have hlast := readBody_length hbody
              simp only [hbody, Reading.map, Reading.complete.injEq] at h
              obtain ⟨-, rfl⟩ := h
              omega

end Stomp.Wire

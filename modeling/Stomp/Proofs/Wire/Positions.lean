import Stomp.Proofs.Outcome
import Stomp.Wire.RawFrame

/-!
# Frames by position

A frame is read again, with a position that moves over the bytes.  Positions and lengths are
64-bit words.  A look behind the last byte, a sum that no word holds and a difference below
zero are crashes; only what a header declares is added with a test.
-/

namespace Stomp.Wire

open Bytes

namespace Positions

inductive Crash where
  | outOfBounds
  | overflow
  deriving DecidableEq, Repr

/-- What a reader finds, and the position behind it. -/
inductive Found (α : Type) where
  | incomplete
  | malformed (cause : Malformed)
  | found (value : α) (next : Nat)
  deriving DecidableEq, Repr

namespace Found

variable {α β : Type}

def map (f : α → β) : Found α → Found β
  | .incomplete => .incomplete
  | .malformed cause => .malformed cause
  | .found value next => .found (f value) next

def bind (result : Found α) (next : α → Nat → Except Crash (Found β)) : Except Crash (Found β) :=
  match result with
  | .incomplete => .ok .incomplete
  | .malformed cause => .ok (.malformed cause)
  | .found value pos => next value pos

theorem map_eq_found {f : α → β} {result : Found α} {value : β} {next : Nat} :
    result.map f = .found value next ↔ ∃ a, result = .found a next ∧ f a = value := by
  cases result <;> simp [map, and_comm]

def reading (input : Bytes) : Found α → Reading α
  | .incomplete => .incomplete
  | .malformed cause => .malformed cause
  | .found value next => .complete value (input.drop next)

end Found

/-! ## Words and bytes -/

def plus? (m n : Nat) : Option Nat := if m + n < Numeral.word64 then some (m + n) else none

def plus (m n : Nat) : Except Crash Nat :=
  if m + n < Numeral.word64 then .ok (m + n) else .error .overflow

def minus (m n : Nat) : Except Crash Nat := if n ≤ m then .ok (m - n) else .error .overflow

def byteAt (input : Bytes) (pos : Nat) : Except Crash UInt8 :=
  match input[pos]? with
  | some b => .ok b
  | none => .error .outOfBounds

def slice (input : Bytes) (start stop : Nat) : Except Crash Bytes :=
  if start ≤ stop ∧ stop ≤ input.length then .ok ((input.drop start).take (stop - start))
  else .error .outOfBounds

def find? (mark : UInt8) (input : Bytes) : Option Nat := input.findIdx? (· == mark)

theorem plus_eq_ok_iff {m n sum : Nat} :
    plus m n = .ok sum ↔ m + n < Numeral.word64 ∧ m + n = sum := by
  by_cases h : m + n < Numeral.word64 <;> simp [plus, h]

/-! ## Line ends -/

def isCrLfAt (input : Bytes) (pos : Nat) : Except Crash Bool :=
  if input[pos]? = some cr then do
    let second ← plus pos 1
    return input[second]? == some lf
  else return false

def skipEolAt (input : Bytes) (pos : Nat) : Except Crash Nat := do
  let isCrLf ← isCrLfAt input pos
  if isCrLf then plus pos 2
  else if input[pos]? = some lf then plus pos 1
  else return pos

def eolStep (input : Bytes) (pos : Nat) : Except Crash (Option Nat) :=
  if pos < input.length then do
    let b ← byteAt input pos
    if isEol b then do
      let next ← plus pos 1
      return some next
    else return none
  else return none

theorem eolStep_lt {input : Bytes} {pos next : Nat} (h : eolStep input pos = .ok (some next)) :
    pos < next ∧ pos < input.length := by
  unfold eolStep at h
  split at h
  · next hpos =>
      obtain ⟨b, -, h⟩ := Except.bind_eq_ok.mp h
      split at h
      · obtain ⟨sum, hsum, h⟩ := Except.bind_eq_ok.mp h
        obtain rfl := Option.some.inj (Except.ok.inj h)
        obtain ⟨-, rfl⟩ := plus_eq_ok_iff.mp hsum
        exact ⟨Nat.lt_succ_self pos, hpos⟩
      · simp [pure, Except.pure] at h
  · simp [pure, Except.pure] at h

def skipEols (input : Bytes) (pos : Nat) : Except Crash Nat :=
  match _hstep : eolStep input pos with
  | .error crash => .error crash
  | .ok none => .ok pos
  | .ok (some next) => skipEols input next
  termination_by input.length - pos
  decreasing_by
    have := eolStep_lt _hstep
    omega

/-! ## The head -/

def chompAt (line : Bytes) : Except Crash Bytes :=
  if line.getLast? = some cr then do
    let stop ← minus line.length 1
    slice line 0 stop
  else return line

def headerAt (input : Bytes) (pos : Nat) : Except Crash (Found (Bytes × Bytes)) := do
  let rest ← slice input pos input.length
  match find? lf rest with
  | none => return .incomplete
  | some length => do
      let stop ← plus pos length
      let whole ← slice input pos stop
      let line ← chompAt whole
      match find? colon line with
      | none => return .malformed (.noColon line)
      | some mark => do
          let name ← slice line 0 mark
          let start ← plus mark 1
          let value ← slice line start line.length
          let size ← plus length 1
          let next ← plus pos size
          return .found (name, value) next

def lineAt (input : Bytes) (pos : Nat) : Except Crash (Found (Option (Bytes × Bytes))) :=
  if input.length ≤ pos then return .incomplete
  else do
    let b ← byteAt input pos
    if b = lf then do
      let next ← plus pos 1
      return .found none next
    else if b = cr then do
      -- alone at the end, it may be half of a line end
      let second ← plus pos 1
      if input.length ≤ second then return .incomplete
      else do
        let c ← byteAt input second
        if c = lf then do
          let next ← plus pos 2
          return .found none next
        else do
          let header ← headerAt input pos
          return header.map some
    else do
      let header ← headerAt input pos
      return header.map some

theorem headerAt_lt {input : Bytes} {pos next : Nat} {header : Bytes × Bytes}
    (h : headerAt input pos = .ok (.found header next)) : pos < next := by
  unfold headerAt at h
  obtain ⟨rest, -, h⟩ := Except.bind_eq_ok.mp h
  split at h
  · simp [pure, Except.pure] at h
  · next length _ =>
      obtain ⟨stop, -, h⟩ := Except.bind_eq_ok.mp h
      obtain ⟨whole, -, h⟩ := Except.bind_eq_ok.mp h
      obtain ⟨line, -, h⟩ := Except.bind_eq_ok.mp h
      split at h
      · simp [pure, Except.pure] at h
      · obtain ⟨name, -, h⟩ := Except.bind_eq_ok.mp h
        obtain ⟨start, -, h⟩ := Except.bind_eq_ok.mp h
        obtain ⟨value, -, h⟩ := Except.bind_eq_ok.mp h
        obtain ⟨size, hsize, h⟩ := Except.bind_eq_ok.mp h
        obtain ⟨sum, hsum, h⟩ := Except.bind_eq_ok.mp h
        obtain ⟨-, rfl⟩ := Found.found.inj (Except.ok.inj h)
        obtain ⟨-, rfl⟩ := plus_eq_ok_iff.mp hsize
        obtain ⟨-, rfl⟩ := plus_eq_ok_iff.mp hsum
        omega

theorem lt_of_map_headerAt {input : Bytes} {pos next : Nat} {line : Option (Bytes × Bytes)}
    (h : (headerAt input pos >>= fun header => pure (header.map some)) =
      .ok (.found line next)) : pos < next := by
  obtain ⟨header, hheader, h⟩ := Except.bind_eq_ok.mp h
  obtain ⟨value, rfl, -⟩ := Found.map_eq_found.mp (Except.ok.inj h)
  exact headerAt_lt hheader

theorem lineAt_lt {input : Bytes} {pos next : Nat} {line : Option (Bytes × Bytes)}
    (h : lineAt input pos = .ok (.found line next)) : pos < next ∧ pos < input.length := by
  unfold lineAt at h
  split at h
  · simp [pure, Except.pure] at h
  next hpos =>
  refine ⟨?_, Nat.not_le.mp hpos⟩
  obtain ⟨b, -, h⟩ := Except.bind_eq_ok.mp h
  split at h
  · obtain ⟨sum, hsum, h⟩ := Except.bind_eq_ok.mp h
    obtain ⟨-, rfl⟩ := Found.found.inj (Except.ok.inj h)
    obtain ⟨-, rfl⟩ := plus_eq_ok_iff.mp hsum
    omega
  split at h
  · obtain ⟨second, -, h⟩ := Except.bind_eq_ok.mp h
    split at h
    · simp [pure, Except.pure] at h
    obtain ⟨c, -, h⟩ := Except.bind_eq_ok.mp h
    split at h
    · obtain ⟨sum, hsum, h⟩ := Except.bind_eq_ok.mp h
      obtain ⟨-, rfl⟩ := Found.found.inj (Except.ok.inj h)
      obtain ⟨-, rfl⟩ := plus_eq_ok_iff.mp hsum
      omega
    · exact lt_of_map_headerAt h
  · exact lt_of_map_headerAt h

def headersAt (input : Bytes) (pos : Nat) : Except Crash (Found (List (Bytes × Bytes))) :=
  match _hline : lineAt input pos with
  | .error crash => .error crash
  | .ok .incomplete => .ok .incomplete
  | .ok (.malformed cause) => .ok (.malformed cause)
  | .ok (.found none next) => .ok (.found [] next)
  | .ok (.found (some header) next) => do
      let more ← headersAt input next
      return more.map (header :: ·)
  termination_by input.length - pos
  decreasing_by
    have := lineAt_lt _hline
    omega

theorem headersAt_eq (input : Bytes) (pos : Nat) :
    headersAt input pos =
      (lineAt input pos >>= fun line => line.bind fun line next =>
        match line with
        | none => return .found [] next
        | some header => do
            let more ← headersAt input next
            return more.map (header :: ·)) := by
  rw [headersAt.eq_def]
  split <;> simp_all [Found.bind, Except.ok_bind] <;> rfl

/-! ## The body -/

def bodyAt (input : Bytes) (declared : Option Nat) (pos : Nat) :
    Except Crash (Found (Option Bytes)) :=
  match declared with
  | some length =>
      if maxContentLength < length then return .malformed (.lengthTooLarge length)
      else
        match (plus? pos length).bind (plus? · 1) with
        | none => return .malformed (.lengthUnreachable length)
        | some stop =>
            if input.length < stop then return .incomplete
            else do
              let last ← plus pos length
              let body ← slice input pos last
              let b ← byteAt input last
              if b = nul then do
                let after ← plus last 1
                let next ← skipEolAt input after
                return .found (some body) next
              else return .malformed .unterminated
  | none => do
      let rest ← slice input pos input.length
      match find? nul rest with
      | none => return .incomplete
      | some length => do
          let last ← plus pos length
          let body ← slice input pos last
          let after ← plus last 1
          let next ← skipEolAt input after
          return .found (if body.isEmpty then none else some body) next

/-! ## The frame -/

def frameTail (input command : Bytes) (pos : Nat) : Except Crash (Found RawFrame) := do
  let head ← headersAt input pos
  head.bind fun headers next =>
    match declaredLength headers with
    | .error cause => return .malformed cause
    | .ok declared => do
        let body ← bodyAt input declared next
        return body.map (⟨command, headers, ·⟩)

def frame (input : Bytes) : Except Crash (Found RawFrame) := do
  let pos ← skipEols input 0
  if input.length ≤ pos then return .incomplete
  else do
    let rest ← slice input pos input.length
    match find? lf rest with
    | none => return .incomplete
    | some length => do
        let stop ← plus pos length
        let line ← slice input pos stop
        if (chomp line).isEmpty then return .malformed .emptyCommand
        else do
          let size ← plus length 1
          let next ← plus pos size
          frameTail input (chomp line) next

end Positions

end Stomp.Wire

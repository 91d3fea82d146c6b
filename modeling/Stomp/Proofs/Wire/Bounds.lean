import Mathlib.Algebra.Group.Nat.Defs
import Stomp.Proofs.Wire.Lines
import Stomp.Proofs.Wire.Positions

/-!
# Positions stay in bounds

Each reader by position agrees with the one that cuts what is left: it does not crash, and the
position behind what it finds is within the bytes.  So no input that fits into memory leads to
a crash (`Positions.frame_never_crashes`).
-/

namespace Stomp.Wire

open Bytes

namespace Positions

/-! ## What is looked up is there -/

variable {input rest : Bytes} {pos n : Nat} {b : UInt8}

theorem plus_of_le {m n : Nat} (hsize : input.length < 2 ^ 63) (hle : m + n ≤ input.length + 2) :
    plus m n = .ok (m + n) := by
  have hword : Numeral.word64 = 2 ^ 64 := by decide
  exact plus_eq_ok_iff.mpr ⟨by omega, rfl⟩

theorem slice_of_le {start stop : Nat} (h : start ≤ stop) (hstop : stop ≤ input.length) :
    slice input start stop = .ok ((input.drop start).take (stop - start)) :=
  if_pos ⟨h, hstop⟩

theorem slice_to_end (hpos : pos ≤ input.length) :
    slice input pos input.length = .ok (input.drop pos) := by
  rw [slice_of_le hpos le_rfl, List.take_of_length_le (by rw [List.length_drop])]

theorem slice_of_add (h : pos + n ≤ input.length) :
    slice input pos (pos + n) = .ok ((input.drop pos).take n) := by
  rw [slice_of_le (Nat.le_add_right pos n) h, Nat.add_sub_cancel_left]

theorem lt_of_drop (h : input.drop pos = b :: rest) : pos < input.length := by
  by_contra hpos
  rw [List.drop_eq_nil_of_le (Nat.not_lt.mp hpos)] at h
  simp at h

theorem drop_succ (h : input.drop pos = b :: rest) : input.drop (pos + 1) = rest := by
  rw [← List.drop_drop, h, List.drop_succ_cons, List.drop_zero]

theorem getElem?_of_drop (h : input.drop pos = b :: rest) : input[pos]? = some b := by
  have hfirst : (input.drop pos)[0]? = some b := by rw [h]; rfl
  rwa [List.getElem?_drop, Nat.add_zero] at hfirst

theorem byteAt_of_drop (h : input.drop pos = b :: rest) : byteAt input pos = .ok b := by
  rw [byteAt, getElem?_of_drop h]

theorem find?_lt {mark : UInt8} (h : find? mark input = some n) : n < input.length :=
  (List.findIdx?_eq_some_iff_getElem.mp h).1

theorem cut?_eq (mark : UInt8) (input : Bytes) :
    cut? mark input = (find? mark input).map fun n => (input.take n, input.drop (n + 1)) := by
  induction input with
  | nil => rfl
  | cons b rest ih =>
      rw [cut?_cons, find?, List.findIdx?_cons]
      by_cases h : b = mark
      · simp [h]
      · rw [if_neg h, ih, find?]
        cases rest.findIdx? (· == mark) <;> simp [h]

/-! ## Both readers agree -/

/-- A result without a crash, and what a reader of the rest of the bytes says. -/
inductive Agrees {α : Type} (input : Bytes) (pos : Nat) :
    Except Crash (Found α) → Reading α → Prop
  | incomplete : Agrees input pos (.ok .incomplete) .incomplete
  | malformed (cause : Malformed) : Agrees input pos (.ok (.malformed cause)) (.malformed cause)
  | found (value : α) {next : Nat} (hlt : pos < next) (hle : next ≤ input.length) :
      Agrees input pos (.ok (.found value next)) (.complete value (input.drop next))

section Agrees

variable {α β : Type} {result : Except Crash (Found α)} {reading : Reading α}

theorem Agrees.mono {start : Nat} (h : Agrees input pos result reading) (hle : start ≤ pos) :
    Agrees input start result reading := by
  cases h with
  | incomplete => exact .incomplete
  | malformed cause => exact .malformed cause
  | found value hlt hbound => exact .found value (hle.trans_lt hlt) hbound

theorem Agrees.map (f : α → β) (h : Agrees input pos result reading) :
    Agrees input pos (result >>= fun found => pure (found.map f)) (reading.map f) := by
  cases h with
  | incomplete => exact .incomplete
  | malformed cause => exact .malformed cause
  | found value hlt hle => exact .found (f value) hlt hle

theorem Agrees.bind {step : α → Nat → Except Crash (Found β)} {next : α → Bytes → Reading β}
    (h : Agrees input pos result reading)
    (hnext : ∀ value mid, pos < mid → mid ≤ input.length →
      Agrees input pos (step value mid) (next value (input.drop mid))) :
    Agrees input pos (result >>= fun found => found.bind step) (reading.bind next) := by
  cases h with
  | incomplete => exact .incomplete
  | malformed cause => exact .malformed cause
  | found value hlt hle => exact hnext value _ hlt hle

theorem Agrees.exists_found (h : Agrees input pos result reading) :
    ∃ found, result = .ok found ∧ found.reading input = reading ∧
      ∀ value next, found = .found value next → pos < next ∧ next ≤ input.length := by
  cases h with
  | incomplete => exact ⟨_, rfl, rfl, by simp⟩
  | malformed cause => exact ⟨_, rfl, rfl, by simp⟩
  | found value hlt hle => exact ⟨_, rfl, rfl, by simpa using ⟨hlt, hle⟩⟩

end Agrees

theorem afterEol?_eq_none (hlf : b ≠ lf) (hcrlf : ¬ ∃ more, b :: rest = cr :: lf :: more) :
    afterEol? (b :: rest) = none := by
  unfold afterEol?
  split
  · next heq => exact absurd (List.cons.inj heq).1 hlf
  · next more heq => exact absurd ⟨more, heq⟩ hcrlf
  · rfl

theorem exists_isCrLfAt (hsize : input.length < 2 ^ 63) (pos : Nat) :
    ∃ isCrLf, isCrLfAt input pos = .ok isCrLf ∧
      (isCrLf = true ↔ ∃ rest, input.drop pos = cr :: lf :: rest) := by
  unfold isCrLfAt
  rw [← List.head?_drop]
  cases hrest : input.drop pos with
  | nil => exact ⟨false, rfl, by simp⟩
  | cons b rest =>
      have hlt := lt_of_drop hrest
      by_cases hcr : b = cr
      · rw [if_pos (by rw [hcr, List.head?_cons]), plus_of_le hsize (by omega),
          Except.ok_bind, ← List.head?_drop, drop_succ hrest]
        refine ⟨_, rfl, ?_⟩
        cases rest <;> simp [hcr]
      · exact ⟨false, if_neg (by simpa using hcr), by simp [hcr]⟩

theorem exists_skipEolAt (hsize : input.length < 2 ^ 63) (hpos : pos ≤ input.length) :
    ∃ next, skipEolAt input pos = .ok next ∧ pos ≤ next ∧ next ≤ input.length ∧
      input.drop next = skipEol (input.drop pos) := by
  obtain ⟨isCrLf, hcrlf, hiff⟩ := exists_isCrLfAt hsize pos
  rw [skipEolAt, hcrlf, Except.ok_bind]
  by_cases h : isCrLf = true
  · obtain ⟨rest, hrest⟩ := hiff.mp h
    have hlt := lt_of_drop (drop_succ hrest)
    refine ⟨pos + 2, ?_, by omega, by omega, ?_⟩
    · rw [if_pos h, plus_of_le hsize (by omega)]
    · rw [hrest, ← drop_succ (drop_succ hrest)]
      rfl
  rw [if_neg h, ← List.head?_drop]
  cases hrest : input.drop pos with
  | nil => exact ⟨pos, rfl, le_rfl, hpos, hrest⟩
  | cons b rest =>
      have hlt := lt_of_drop hrest
      by_cases hlf : b = lf
      · refine ⟨pos + 1, ?_, by omega, by omega, ?_⟩
        · rw [if_pos (by rw [hlf, List.head?_cons]), plus_of_le hsize (by omega)]
        · rw [hlf, drop_succ hrest]
          rfl
      · refine ⟨pos, if_neg (by simpa using hlf), le_rfl, hpos, ?_⟩
        rw [hrest, skipEol, afterEol?_eq_none hlf (hrest ▸ mt hiff.mpr h), Option.getD_none]

theorem eolStep_eq (hsize : input.length < 2 ^ 63) (pos : Nat) :
    eolStep input pos = .ok (match input.drop pos with
      | [] => none
      | b :: _ => if isEol b then some (pos + 1) else none) := by
  unfold eolStep
  cases hrest : input.drop pos with
  | nil =>
      have hend : input.length ≤ pos := List.drop_eq_nil_iff.mp hrest
      rw [if_neg (Nat.not_lt.mpr hend)]
      rfl
  | cons b rest =>
      have hlt := lt_of_drop hrest
      rw [if_pos hlt, byteAt_of_drop hrest, Except.ok_bind, plus_of_le hsize (by omega)]
      split <;> simp_all [Except.ok_bind, pure, Except.pure]

theorem exists_skipEols (hsize : input.length < 2 ^ 63) (hpos : pos ≤ input.length) :
    ∃ next, skipEols input pos = .ok next ∧ next ≤ input.length ∧
      input.drop next = (input.drop pos).dropWhile isEol := by
  fun_induction skipEols input pos with
  | case1 pos crash hstep => simp [eolStep_eq hsize pos] at hstep
  | case2 pos hstep =>
      refine ⟨pos, rfl, hpos, ?_⟩
      have hnone := Except.ok.inj ((eolStep_eq hsize pos).symm.trans hstep)
      cases hrest : input.drop pos with
      | nil => rfl
      | cons b rest =>
          rw [hrest] at hnone
          rw [List.dropWhile_cons_of_neg (by simpa using hnone)]
  | case3 pos next hstep ih =>
      have hsome := Except.ok.inj ((eolStep_eq hsize pos).symm.trans hstep)
      cases hrest : input.drop pos with
      | nil => simp [hrest] at hsome
      | cons b rest =>
          have hlt := lt_of_drop hrest
          have heol : isEol b = true ∧ pos + 1 = next := by simpa [hrest] using hsome
          obtain ⟨heol, rfl⟩ := heol
          rw [List.dropWhile_cons_of_pos heol, ← drop_succ hrest]
          exact ih hlt

/-! ## The head -/

def readHeader (input : Bytes) : Reading (Bytes × Bytes) :=
  match cut? lf input with
  | none => .incomplete
  | some (line, rest) =>
      match cut? colon (chomp line) with
      | none => .malformed (.noColon (chomp line))
      | some header => .complete header rest

def readLine (input : Bytes) : Reading (Option (Bytes × Bytes)) :=
  match afterEol? input with
  | some rest => .complete none rest
  | none => (readHeader input).map some

theorem readHeaders_eq_readLine (input : Bytes) :
    readHeaders input = (readLine input).bind fun line rest =>
      match line with
      | none => .complete [] rest
      | some header => (readHeaders rest).map (header :: ·) := by
  rw [readHeaders_eq, readLine, readHeader]
  cases afterEol? input with
  | some rest => rfl
  | none =>
      cases cut? lf input with
      | none => rfl
      | some parts =>
          dsimp only
          cases cut? colon (chomp parts.1) <;> rfl

theorem chomp_length (line : Bytes) : (chomp line).length ≤ line.length := by
  unfold chomp
  split
  · rw [List.length_dropLast]
    exact Nat.sub_le _ 1
  · exact le_rfl

theorem chompAt_eq (line : Bytes) : chompAt line = .ok (chomp line) := by
  unfold chompAt chomp
  split
  · next hcr =>
      have hpos : 1 ≤ line.length := by
        cases line <;> simp at hcr ⊢
      rw [minus, if_pos hpos, Except.ok_bind, slice_of_le (Nat.zero_le _) (Nat.sub_le _ 1),
        List.drop_zero, Nat.sub_zero, List.dropLast_eq_take]
  · rfl

theorem headerAt_agrees (hsize : input.length < 2 ^ 63) (hpos : pos ≤ input.length) :
    Agrees input pos (headerAt input pos) (readHeader (input.drop pos)) := by
  rw [headerAt, slice_to_end hpos, Except.ok_bind, readHeader, cut?_eq]
  cases hend : find? lf (input.drop pos) with
  | none => exact .incomplete
  | some length =>
      have hlength := find?_lt hend
      rw [List.length_drop] at hlength
      dsimp only [Option.map_some]
      rw [plus_of_le hsize (by omega), Except.ok_bind, slice_of_add (by omega),
        Except.ok_bind, chompAt_eq, Except.ok_bind, cut?_eq]
      cases hcolon : find? colon (chomp ((input.drop pos).take length)) with
      | none => exact .malformed _
      | some mark =>
          have hmark := find?_lt hcolon
          have hline := chomp_length ((input.drop pos).take length)
          rw [List.length_take, List.length_drop] at hline
          dsimp only [Option.map_some]
          rw [slice_of_le (Nat.zero_le mark) hmark.le, Except.ok_bind,
            plus_of_le hsize (by omega), Except.ok_bind, slice_to_end hmark, Except.ok_bind,
            plus_of_le hsize (by omega), Except.ok_bind, plus_of_le hsize (by omega),
            Except.ok_bind, List.drop_zero, Nat.sub_zero, List.drop_drop]
          exact .found _ (by omega) (by omega)

theorem lineAt_agrees (hsize : input.length < 2 ^ 63) (hpos : pos ≤ input.length) :
    Agrees input pos (lineAt input pos) (readLine (input.drop pos)) := by
  have hheader := (headerAt_agrees hsize hpos).map some
  unfold lineAt
  cases hrest : input.drop pos with
  | nil =>
      rw [if_pos (List.drop_eq_nil_iff.mp hrest)]
      exact .incomplete
  | cons b rest =>
      have hlt := lt_of_drop hrest
      rw [hrest] at hheader
      rw [if_neg (Nat.not_le.mpr hlt), byteAt_of_drop hrest, Except.ok_bind]
      by_cases hlf : b = lf
      · rw [if_pos hlf, plus_of_le hsize (by omega), Except.ok_bind, hlf, ← drop_succ hrest]
        exact .found none (Nat.lt_succ_self pos) hlt
      rw [if_neg hlf]
      by_cases hcr : b = cr
      · rw [if_pos hcr, plus_of_le hsize (by omega), Except.ok_bind]
        cases hmore : rest with
        | nil =>
            have hend : input.length ≤ pos + 1 :=
              List.drop_eq_nil_iff.mp ((drop_succ hrest).trans hmore)
            rw [if_pos hend, hcr]
            exact .incomplete
        | cons c more =>
            have hsecond := (drop_succ hrest).trans hmore
            have hlt' := lt_of_drop hsecond
            rw [if_neg (Nat.not_le.mpr hlt'), byteAt_of_drop hsecond, Except.ok_bind]
            by_cases hlf' : c = lf
            · rw [if_pos hlf', plus_of_le hsize (by omega), Except.ok_bind, hcr, hlf',
                ← drop_succ hsecond]
              exact .found none (by omega) hlt'
            · rw [if_neg hlf', readLine, afterEol?_eq_none hlf (by simp [hlf']), ← hmore]
              exact hheader
      · rw [if_neg hcr, readLine, afterEol?_eq_none hlf (by simp [hcr])]
        exact hheader

theorem headersAt_agrees (hsize : input.length < 2 ^ 63) (hpos : pos ≤ input.length) :
    Agrees input pos (headersAt input pos) (readHeaders (input.drop pos)) := by
  induction hleft : input.length - pos using Nat.strongRecOn generalizing pos with
  | ind left ih =>
      rw [headersAt_eq, readHeaders_eq_readLine]
      refine (lineAt_agrees hsize hpos).bind fun line next hlt hle => ?_
      cases line with
      | none => exact .found [] hlt hle
      | some header =>
          have hmore := ih (input.length - next) (by omega) hle rfl
          exact (hmore.mono hlt.le).map (header :: ·)

/-! ## The body -/

theorem undeclared_agrees (hsize : input.length < 2 ^ 63) (hpos : pos ≤ input.length) :
    Agrees input pos (bodyAt input none pos) (readBody pos none (input.drop pos)) := by
  rw [bodyAt, slice_to_end hpos, Except.ok_bind, readBody, cut?_eq]
  cases hend : find? nul (input.drop pos) with
  | none => exact .incomplete
  | some length =>
      have hlength := find?_lt hend
      rw [List.length_drop] at hlength
      have hafter : pos + length + 1 ≤ input.length := by omega
      obtain ⟨next, hskip, hlt, hle, hrest⟩ := exists_skipEolAt hsize hafter
      dsimp only [Option.map_some]
      rw [plus_of_le hsize (by omega), Except.ok_bind, slice_of_add (by omega),
        Except.ok_bind, plus_of_le hsize (by omega), Except.ok_bind, hskip, Except.ok_bind,
        List.drop_drop, ← Nat.add_assoc, ← hrest]
      exact .found _ (by omega) hle

theorem declared_agrees (hsize : input.length < 2 ^ 63) (hpos : pos ≤ input.length)
    (length : Nat) :
    Agrees input pos (bodyAt input (some length) pos)
      (readBody pos (some length) (input.drop pos)) := by
  rw [bodyAt, readBody]
  by_cases hbound : maxContentLength < length
  · rw [if_pos hbound, if_pos hbound]
    exact .malformed _
  have hword : Numeral.word64 = 2 ^ 64 := by decide
  have hlength : length ≤ 16 * 1024 * 1024 := Nat.not_lt.mp hbound
  have hstop : (plus? pos length).bind (plus? · 1) = some (pos + length + 1) := by
    rw [plus?, if_pos (by omega), Option.bind_some, plus?, if_pos (by omega)]
  rw [if_neg hbound, if_neg hbound, if_neg (by omega), hstop, List.drop_drop]
  dsimp only
  cases hrest : input.drop (pos + length) with
  | nil =>
      have hend : input.length ≤ pos + length := List.drop_eq_nil_iff.mp hrest
      rw [if_pos (by omega)]
      exact .incomplete
  | cons b rest =>
      have hlast := lt_of_drop hrest
      rw [if_neg (by omega), plus_of_le hsize (by omega), Except.ok_bind,
        slice_of_add hlast.le, Except.ok_bind, byteAt_of_drop hrest, Except.ok_bind]
      dsimp only
      by_cases hnul : b = nul
      · have hafter : pos + length + 1 ≤ input.length := hlast
        obtain ⟨next, hskip, hlt, hle, hnext⟩ := exists_skipEolAt hsize hafter
        rw [if_pos hnul, if_pos hnul, plus_of_le hsize (by omega), Except.ok_bind, hskip,
          Except.ok_bind, ← drop_succ hrest, ← hnext]
        exact .found _ (by omega) hle
      · rw [if_neg hnul, if_neg hnul]
        exact .malformed _

theorem bodyAt_agrees (hsize : input.length < 2 ^ 63) (hpos : pos ≤ input.length)
    (declared : Option Nat) :
    Agrees input pos (bodyAt input declared pos) (readBody pos declared (input.drop pos)) := by
  cases declared with
  | none => exact undeclared_agrees hsize hpos
  | some length => exact declared_agrees hsize hpos length

/-! ## The frame -/

theorem frameTail_agrees (hsize : input.length < 2 ^ 63) (hpos : pos ≤ input.length)
    (command : Bytes) :
    Agrees input pos (frameTail input command pos)
      (RawFrame.readTail input.length command (input.drop pos)) := by
  refine (headersAt_agrees hsize hpos).bind fun headers next hlt hle => ?_
  rw [List.length_drop, Nat.sub_sub_self hle]
  cases declaredLength headers with
  | error cause => exact .malformed cause
  | ok declared => exact ((bodyAt_agrees hsize hle declared).mono hlt.le).map _

theorem frame_agrees (hsize : input.length < 2 ^ 63) :
    Agrees input 0 (frame input) (RawFrame.read input) := by
  obtain ⟨pos, hskip, hle, hrest⟩ := exists_skipEols hsize (Nat.zero_le input.length)
  rw [List.drop_zero] at hrest
  rw [frame, hskip, Except.ok_bind, RawFrame.read, ← hrest, cut?_eq]
  by_cases hend : input.length ≤ pos
  · rw [if_pos hend, List.drop_eq_nil_of_le hend]
    exact .incomplete
  rw [if_neg hend, slice_to_end hle, Except.ok_bind]
  cases hline : find? lf (input.drop pos) with
  | none => exact .incomplete
  | some length =>
      have hlength := find?_lt hline
      rw [List.length_drop] at hlength
      dsimp only [Option.map_some]
      rw [plus_of_le hsize (by omega), Except.ok_bind, slice_of_add (by omega), Except.ok_bind]
      split
      · exact .malformed _
      · rw [plus_of_le hsize (by omega), Except.ok_bind, plus_of_le hsize (by omega),
          Except.ok_bind, List.drop_drop]
        exact (frameTail_agrees hsize (by omega) _).mono (Nat.zero_le _)

end Positions

/-! ## Causes that do not occur -/

/-- A command line is never empty, and a length that is not too large never reaches too far. -/
def Malformed.Occurs (cause : Malformed) : Prop :=
  cause ≠ .emptyCommand ∧ ∀ length, cause ≠ .lengthUnreachable length

section Occurs

variable {input : Bytes} {cause : Malformed}

theorem occurs_of_readHeaders (h : readHeaders input = .malformed cause) : cause.Occurs := by
  fun_induction readHeaders input with
  | case1 => simp at h
  | case2 => simp at h
  | case3 input heol line rest hcut hcolon =>
      obtain rfl := Reading.malformed.inj h
      exact ⟨by simp, by simp⟩
  | case4 input heol line rest hcut header hcolon ih => exact ih (Reading.map_eq_malformed.mp h)

theorem occurs_of_declaredLength {headers : List (Bytes × Bytes)}
    (h : declaredLength headers = .error cause) : cause.Occurs := by
  unfold declaredLength at h
  split at h
  · simp at h
  split at h
  · obtain rfl := Except.error.inj h
    exact ⟨by simp, by simp⟩
  dsimp only at h
  split at h
  · obtain rfl := Except.error.inj h
    exact ⟨by simp, by simp⟩
  split at h
  · obtain rfl := Except.error.inj h
    exact ⟨by simp, by simp⟩
  · simp at h

theorem occurs_of_readBody {headEnd : Nat} {declared : Option Nat} (hend : headEnd < 2 ^ 63)
    (h : readBody headEnd declared input = .malformed cause) : cause.Occurs := by
  have hword : 2 ^ 63 + 16 * 1024 * 1024 + 1 < Numeral.word64 := by decide
  unfold readBody at h
  split at h
  · split at h <;> simp at h
  split at h
  · obtain rfl := Reading.malformed.inj h
    exact ⟨by simp, by simp⟩
  next length hbound =>
  have hlength : length ≤ 16 * 1024 * 1024 := Nat.not_lt.mp hbound
  rw [if_neg (by omega)] at h
  split at h
  · simp at h
  split at h
  · simp at h
  · obtain rfl := Reading.malformed.inj h
    exact ⟨by simp, by simp⟩

theorem RawFrame.occurs_of_read (hsize : input.length < 2 ^ 63)
    (h : read input = .malformed cause) : cause.Occurs := by
  have hread : read input ≠ .incomplete := by simp [h]
  obtain ⟨eols, line, command, rest, hopens, rfl⟩ := opens_of_read hread
  rw [read_of_opens hopens, readTail] at h
  cases hhead : readHeaders rest with
  | incomplete => simp [hhead, Reading.bind] at h
  | malformed other =>
      rw [hhead, Reading.bind, Reading.malformed.injEq] at h
      exact h ▸ occurs_of_readHeaders hhead
  | complete headers after =>
      rw [hhead, Reading.bind] at h
      cases hlength : declaredLength headers with
      | error other =>
          rw [hlength, Reading.malformed.injEq] at h
          exact h ▸ occurs_of_declaredLength hlength
      | ok declared =>
          rw [hlength] at h
          have hend := (Nat.sub_le _ after.length).trans_lt hsize
          exact occurs_of_readBody hend (Reading.map_eq_malformed.mp h)

end Occurs

namespace Positions

theorem Found.reading_eq_malformed {α : Type} {found : Found α} {input : Bytes}
    {cause : Malformed} : found.reading input = .malformed cause ↔ found = .malformed cause := by
  cases found <;> simp [reading]

/--
A reader by position does not crash on any input that fits into memory, whatever length it
declares: it comes to the same result as a reader that cuts.  Neither an empty command line
nor a length that overflows a position is among the results.
-/
theorem frame_never_crashes {input : Bytes} (hsize : input.length < 2 ^ 63) :
    ∃ found, frame input = .ok found ∧ found.reading input = RawFrame.read input ∧
      (∀ raw next, found = .found raw next → 0 < next ∧ next ≤ input.length) ∧
      found ≠ .malformed .emptyCommand ∧
      ∀ length, found ≠ .malformed (.lengthUnreachable length) := by
  obtain ⟨found, hfound, hreading, hbounds⟩ := (frame_agrees hsize).exists_found
  have hoccurs : ∀ cause, found = .malformed cause → cause.Occurs := by
    rintro cause rfl
    exact RawFrame.occurs_of_read hsize hreading.symm
  exact ⟨found, hfound, hreading, hbounds, fun h => (hoccurs _ h).1 rfl,
    fun length h => (hoccurs _ h).2 length rfl⟩

def oversized : Bytes :=
  Utf8.encode "\r\n\nSEND\r\ncontent-length: 18446744073709551615\r\n\r\nbody\x00"

theorem frame_never_crashes_oversized :
    oversized.length < 2 ^ 63 ∧
      frame oversized = .ok (.malformed (.lengthTooLarge 18446744073709551615)) := by
  have hsize : oversized.length < 2 ^ 63 := by decide +kernel
  have hread : RawFrame.read oversized =
      .malformed (.lengthTooLarge 18446744073709551615) := by decide +kernel
  obtain ⟨found, hfound, hreading, -⟩ := frame_never_crashes hsize
  rw [hread, Found.reading_eq_malformed] at hreading
  exact ⟨hsize, hreading ▸ hfound⟩

/-- The line end behind the NUL is passed over, what follows it is not. -/
example :
    frame (Utf8.encode "\nSEND\r\nid:1\n\r\nhi\x00\r\nSEND") =
      .ok (.found ⟨Utf8.encode "SEND", [(Utf8.encode "id", Utf8.encode "1")],
        some (Utf8.encode "hi")⟩ 19) := by
  decide +kernel

end Positions

end Stomp.Wire

import Stomp.Wire.Item

/-!
# More input

What a reader makes of an input that goes on.  An answer that does not ask for
more bytes stays as it is; only the line end after a frame may be taken or left
(`RawFrame.read_append`, `Item.decode_append`).
-/

namespace Stomp.Wire

open Bytes

variable {input rest : Bytes}

/-! ## Cuts and line ends -/

theorem cut?_append {mark : UInt8} {before after : Bytes}
    (h : cut? mark input = some (before, after)) (more : Bytes) :
    cut? mark (input ++ more) = some (before, after ++ more) := by
  obtain ⟨rfl, hfree⟩ := cut?_eq_some_iff.mp h
  exact cut?_eq_some_iff.mpr ⟨by simp, hfree⟩

theorem afterEol?_append (h : afterEol? input = some rest) (more : Bytes) :
    afterEol? (input ++ more) = some (rest ++ more) := by
  unfold afterEol? at h
  split at h
  · obtain rfl := Option.some.inj h
    rfl
  · obtain rfl := Option.some.inj h
    rfl
  · simp at h

theorem afterEol?_append_eq_none (h : afterEol? input = none) (hne : input ≠ [])
    (hcr : input ≠ [cr]) (more : Bytes) : afterEol? (input ++ more) = none := by
  match input with
  | [] => exact absurd rfl hne
  | [b] =>
      have hb : b ≠ cr := fun hb => hcr (by rw [hb])
      unfold afterEol? at h ⊢
      split at h <;> simp_all
  | b :: c :: tail =>
      unfold afterEol? at h ⊢
      split at h <;> simp_all

theorem skipEol_append (input more : Bytes) :
    skipEol (input ++ more) = skipEol input ++ more ∨
      skipEol (input ++ more) = skipEol (skipEol input ++ more) := by
  cases h : afterEol? input with
  | none =>
      right
      rw [show skipEol input = input by rw [skipEol, h, Option.getD_none]]
  | some rest =>
      left
      rw [skipEol, skipEol, h, afterEol?_append h, Option.getD_some, Option.getD_some]

/-! ## Heads -/

def Reading.append {α : Type} (reading : Reading α) (more : Bytes) : Reading α :=
  match reading with
  | .incomplete => .incomplete
  | .complete value rest => .complete value (rest ++ more)
  | .malformed cause => .malformed cause

theorem Reading.map_append {α β : Type} (f : α → β) (reading : Reading α) (more : Bytes) :
    (reading.map f).append more = (reading.append more).map f := by
  cases reading <;> rfl

theorem readHeaders_append (h : readHeaders input ≠ .incomplete) (more : Bytes) :
    readHeaders (input ++ more) = (readHeaders input).append more := by
  have hgoesOn {input : Bytes} (heol : afterEol? input = none) (hlf : lf ∈ input) :
      afterEol? (input ++ more) = none :=
    afterEol?_append_eq_none heol (by rintro rfl; simp at hlf)
      (by rintro rfl; exact absurd hlf (by decide)) more
  fun_induction readHeaders input with
  | case1 input after heol => rw [readHeaders_eq, afterEol?_append heol]; rfl
  | case2 => simp at h
  | case3 input heol line after hcut hcolon =>
      have hlf : lf ∈ input := by simp [(cut?_eq_some_iff.mp hcut).1]
      rw [readHeaders_eq, hgoesOn heol hlf, cut?_append hcut]
      simp only [hcolon]
      rfl
  | case4 input heol line after hcut header hcolon ih =>
      have hlf : lf ∈ input := by simp [(cut?_eq_some_iff.mp hcut).1]
      have hrest : readHeaders after ≠ .incomplete := fun hrest => h (by rw [hrest]; rfl)
      rw [readHeaders_eq, hgoesOn heol hlf, cut?_append hcut]
      simp only [hcolon, ih hrest, Reading.map_append]

/-! ## Bodies -/

/--
What a reading may become when its input goes on by `more`.  A line end that was
not there yet may be taken along with what comes before it.
-/
inductive Reading.Extends {α : Type} (more : Bytes) : Reading α → Reading α → Prop
  | incomplete (later : Reading α) : Extends more .incomplete later
  | complete {value : α} {rest left : Bytes}
      (hleft : left = rest ++ more ∨ left = skipEol (rest ++ more)) :
      Extends more (.complete value rest) (.complete value left)
  | malformed (cause : Malformed) : Extends more (.malformed cause) (.malformed cause)

theorem Reading.Extends.map {α β : Type} {more : Bytes} {reading later : Reading α}
    (h : reading.Extends more later) (f : α → β) : (reading.map f).Extends more (later.map f) := by
  cases h with
  | incomplete => exact .incomplete _
  | complete hleft => exact .complete hleft
  | malformed cause => exact .malformed cause

theorem readBody_append (headEnd : Nat) (declared : Option Nat) (input more : Bytes) :
    (readBody headEnd declared input).Extends more
      (readBody headEnd declared (input ++ more)) := by
  cases declared with
  | none =>
      cases hcut : cut? nul input with
      | none =>
          simp only [readBody, hcut]
          exact .incomplete _
      | some parts =>
          simp only [readBody, hcut, cut?_append hcut]
          exact .complete (skipEol_append parts.2 more)
  | some length =>
      simp only [readBody]
      split
      · exact .malformed _
      split
      · exact .malformed _
      cases hdrop : input.drop length with
      | nil => exact .incomplete _
      | cons b after =>
          have hlength : length ≤ input.length := by
            have := congrArg List.length hdrop
            simp only [List.length_drop, List.length_cons] at this
            omega
          rw [List.drop_append_of_le_length hlength, hdrop, List.take_append_of_le_length hlength]
          simp only [List.cons_append]
          split
          · exact .complete (skipEol_append after more)
          · exact .malformed _

/-! ## Frames -/

theorem RawFrame.readTail_append (total : Nat) (command input more : Bytes)
    (htotal : input.length ≤ total) :
    (RawFrame.readTail total command input).Extends more
      (RawFrame.readTail (total + more.length) command (input ++ more)) := by
  unfold RawFrame.readTail
  cases hhead : readHeaders input with
  | incomplete => exact .incomplete _
  | malformed cause =>
      rw [readHeaders_append (by simp [hhead]), hhead]
      exact .malformed cause
  | complete headers rest =>
      have hrest := readHeaders_length hhead
      have hend : total + more.length - (rest ++ more).length = total - rest.length := by
        rw [List.length_append]
        omega
      rw [readHeaders_append (by simp [hhead]), hhead]
      simp only [Reading.append, Reading.bind, hend]
      cases declaredLength headers with
      | error cause => exact .malformed cause
      | ok declared => exact (readBody_append _ declared rest more).map _

theorem RawFrame.read_append (input more : Bytes) :
    (RawFrame.read input).Extends more (RawFrame.read (input ++ more)) := by
  unfold RawFrame.read
  cases hcut : cut? lf (input.dropWhile isEol) with
  | none => exact .incomplete _
  | some parts =>
      have hskip : (input ++ more).dropWhile isEol = input.dropWhile isEol ++ more := by
        rw [List.dropWhile_append, if_neg]
        intro hempty
        rw [List.isEmpty_iff.mp hempty] at hcut
        simp [cut?] at hcut
      have hlength : parts.2.length ≤ input.length := by
        have := cut?_length hcut
        have := (List.dropWhile_sublist (l := input) isEol).length_le
        omega
      rw [hskip, cut?_append hcut]
      simp only [List.length_append]
      split
      · exact .malformed _
      · exact readTail_append _ _ _ more hlength

theorem RawFrame.read_append_of_malformed {cause : Malformed}
    (h : RawFrame.read input = .malformed cause) (more : Bytes) :
    RawFrame.read (input ++ more) = .malformed cause := by
  have hext := RawFrame.read_append input more
  rw [h] at hext
  generalize RawFrame.read (input ++ more) = later at hext ⊢
  cases hext
  rfl

/-! ## Items -/

theorem Item.decode_of_no_eol {buffer : Bytes} (h : afterEol? buffer = none) :
    Item.decode buffer = decodeLeadingFrame buffer := by
  by_cases hcr : buffer = [cr]
  · subst hcr
    decide +kernel
  · exact decode_leading h hcr

theorem afterEol?_of_idle {buffer : Bytes} (h : Item.decode buffer = .idle) :
    afterEol? buffer = none := by
  cases heol : afterEol? buffer with
  | none => rfl
  | some rest =>
      rw [Item.decode_eol heol] at h
      exact absurd h Decoding.noConfusion

inductive Decoding.Extends (more : Bytes) : Decoding → Decoding → Prop
  | idle (later : Decoding) : Extends more .idle later
  | fault (fault : DecodeFault) (rest left : Bytes) :
      Extends more (.fault fault rest) (.fault fault left)
  | heartbeat (rest : Bytes) :
      Extends more (.item .heartbeat rest) (.item .heartbeat (rest ++ more))
  | frame {content : Frame} {rest left : Bytes}
      (hleft : left = rest ++ more ∨ left = skipEol (rest ++ more)) :
      Extends more (.item (.frame content) rest) (.item (.frame content) left)

theorem decodeLeadingFrame_append (buffer more : Bytes) :
    (decodeLeadingFrame buffer).Extends more (decodeLeadingFrame (buffer ++ more)) := by
  have hread := RawFrame.read_append buffer more
  unfold decodeLeadingFrame
  generalize RawFrame.read buffer = reading at hread ⊢
  generalize RawFrame.read (buffer ++ more) = later at hread ⊢
  cases hread with
  | incomplete => exact .idle _
  | malformed cause => exact .fault _ _ _
  | @complete raw rest left hleft =>
      simp only
      cases decodeFrame raw with
      | error fault => exact .fault _ _ _
      | ok content => exact .frame hleft

/-- An item or a fault that a buffer shows stays when the buffer goes on. -/
theorem Item.decode_append (buffer more : Bytes) :
    (Item.decode buffer).Extends more (Item.decode (buffer ++ more)) := by
  cases heol : afterEol? buffer with
  | some rest =>
      rw [decode_eol heol, decode_eol (afterEol?_append heol more)]
      exact .heartbeat rest
  | none =>
      by_cases hne : buffer = []
      · subst hne
        exact .idle _
      by_cases hcr : buffer = [cr]
      · subst hcr
        exact .idle _
      · have hlater : buffer ++ more ≠ [cr] := by
          intro h
          rcases List.append_eq_singleton_iff.mp h with ⟨h, -⟩ | ⟨h, -⟩
          · exact hne h
          · exact hcr h
        rw [decode_leading heol hcr,
          decode_leading (afterEol?_append_eq_none heol hne hcr more) hlater]
        exact decodeLeadingFrame_append buffer more

end Stomp.Wire

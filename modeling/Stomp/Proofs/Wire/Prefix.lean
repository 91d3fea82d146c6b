import Stomp.Proofs.Wire.Grammar
import Stomp.Proofs.Wire.Stability

/-!
# Prefixes of an input

A frame hangs on the bytes up to its NUL alone (`RawFrame.exists_front_of_read`), so
what a prefix is read as, the whole input is read as too.  Only the line end after a
frame may still come with the rest of the input (`RawFrame.read_stable`).
-/

namespace Stomp.Wire.RawFrame

open Bytes

variable {input rest : Bytes} {raw : RawFrame}

theorem exists_front_of_read (h : read input = .complete raw rest) :
    ∃ front tail, input = front ++ tail ∧ skipEol tail = rest ∧
      ∀ later, read (front ++ later) = .complete raw (skipEol later) := by
  obtain ⟨head, content, tail, declared, rfl, hrest, hspells⟩ := read_eq_complete_iff.mp h
  refine ⟨head.bytes ++ (content ++ [nul]), tail, by simp, hrest, fun later => ?_⟩
  exact read_eq_complete_iff.mpr ⟨head, content, later, declared, by simp, rfl, hspells⟩

theorem exists_alone_of_read (h : read input = .complete raw rest) :
    ∃ taken, input = taken ++ rest ∧ read taken = .complete raw [] := by
  obtain ⟨front, tail, rfl, hrest, hread⟩ := exists_front_of_read h
  obtain ⟨eol, rfl, htakes⟩ := skipEol_eq_iff.mp hrest
  exact ⟨front ++ eol, by rw [List.append_assoc], by rw [hread, htakes.skipEol_eq_nil]⟩

theorem read_append_of_complete (h : read input = .complete raw rest) (more : Bytes) :
    ∃ left, read (input ++ more) = .complete raw left ∧
      (left = rest ++ more ∨
        ∃ eol, IsLineEnd eol ∧ ¬ eol <+: rest ∧ rest ++ more = eol ++ left) := by
  obtain ⟨front, tail, rfl, rfl, hread⟩ := exists_front_of_read h
  refine ⟨skipEol (tail ++ more), by rw [List.append_assoc, hread], ?_⟩
  cases heol : afterEol? tail with
  | some after =>
      left
      rw [skipEol, skipEol, heol, afterEol?_append heol, Option.getD_some, Option.getD_some]
  | none =>
      rw [show skipEol tail = tail by rw [skipEol, heol, Option.getD_none], skipEol]
      cases hlater : afterEol? (tail ++ more) with
      | none => exact .inl rfl
      | some after =>
          right
          obtain ⟨eol, hend, hsplit⟩ := afterEol?_eq_some_iff.mp hlater
          refine ⟨eol, hend, ?_, hsplit⟩
          rintro ⟨others, rfl⟩
          rw [afterEol?_eq_some_iff.mpr ⟨eol, hend, rfl⟩] at heol
          simp at heol

/--
What is refused stays refused for the same cause, and a frame stays the frame it is:
what is left of the input goes on, or a line end that was not whole before is gone from
it.  So an input that is too short has no prefix that is not.
-/
theorem read_stable (input more : Bytes) :
    (∀ cause, read input = .malformed cause → read (input ++ more) = .malformed cause) ∧
      (∀ raw rest, read input = .complete raw rest →
        ∃ consumed left, input = consumed ++ rest ∧
          read (input ++ more) = .complete raw left ∧
          (left = rest ++ more ∨
            ∃ eol, IsLineEnd eol ∧ ¬ eol <+: rest ∧ rest ++ more = eol ++ left)) ∧
      (read (input ++ more) = .incomplete → read input = .incomplete) := by
  refine ⟨fun cause h => read_append_of_malformed h more, fun raw rest h => ?_, fun h => ?_⟩
  · obtain ⟨layout, hinput, -⟩ := spells_of_read h
    obtain ⟨left, hleft⟩ := read_append_of_complete h more
    exact ⟨layout.bytes, left, hinput, hleft⟩
  · cases hread : read input with
    | incomplete => rfl
    | malformed cause => simp [read_append_of_malformed hread] at h
    | complete raw rest =>
        obtain ⟨left, hleft, -⟩ := read_append_of_complete hread more
        simp [hleft] at h

theorem read_stable_cutEol :
    read (Utf8.encode "A\n\n" ++ [nul, cr]) = .complete ⟨Utf8.encode "A", [], none⟩ [cr] ∧
      ∃ consumed left, Utf8.encode "A\n\n" ++ [nul, cr] = consumed ++ [cr] ∧
        read (Utf8.encode "A\n\n" ++ [nul, cr] ++ [lf, lf]) =
          .complete ⟨Utf8.encode "A", [], none⟩ left ∧
        (left = [cr, lf, lf] ∨
          ∃ eol, IsLineEnd eol ∧ ¬ eol <+: [cr] ∧ [cr, lf, lf] = eol ++ left) := by
  have hread : read (Utf8.encode "A\n\n" ++ [nul, cr]) =
      .complete ⟨Utf8.encode "A", [], none⟩ [cr] := by decide +kernel
  exact ⟨hread, (read_stable _ [lf, lf]).2.1 _ _ hread⟩

end Stomp.Wire.RawFrame

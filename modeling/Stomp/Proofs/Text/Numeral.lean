import Stomp.Text.Blank
import Stomp.Text.Numeral

/-!
# Writing and reading numerals

A decimal numeral that was written reads back as its number, and there is
nothing to trim from it.
-/

namespace Stomp.Numeral

/-! ## Digits -/

theorem digit_facts {d : Nat} (h : d < 10) :
    digit? (Char.ofNat ('0'.toNat + d)) = some d ∧
      Char.ofNat ('0'.toNat + d) ≠ '+' ∧
      Text.isBlank (Char.ofNat ('0'.toNat + d)) = false := by
  have hall : ∀ d < 10, digit? (Char.ofNat ('0'.toNat + d)) = some d ∧
      Char.ofNat ('0'.toNat + d) ≠ '+' ∧
      Text.isBlank (Char.ofNat ('0'.toNat + d)) = false := by decide
  exact hall d h

theorem digit_of_mem_digits {n : Nat} {c : Char} (h : c ∈ digits n) :
    ∃ d < 10, c = Char.ofNat ('0'.toNat + d) := by
  fun_induction digits n with
  | case1 n hn => exact ⟨n, hn, by simpa using h⟩
  | case2 n hn ih =>
      rcases List.mem_append.mp h with hinit | hlast
      · exact ih hinit
      · exact ⟨n % 10, by omega, by simpa using hlast⟩

theorem digits_ne_nil (n : Nat) : digits n ≠ [] := by
  rw [digits]
  split <;> simp

theorem readDigits_digits {bound n : Nat} (h : n < bound) :
    readDigits bound (digits n) = .ok n := by
  fun_induction digits n with
  | case1 n hn =>
      simp only [readDigits, List.foldlM_cons, List.foldlM_nil, push, (digit_facts hn).1]
      rw [Nat.zero_mul, Nat.zero_add, if_pos h]
      rfl
  | case2 n hn ih =>
      have hinit : readDigits bound (digits (n / 10)) = .ok (n / 10) := ih (by omega)
      have hvalue : n / 10 * 10 + n % 10 = n := by omega
      unfold readDigits at hinit ⊢
      rw [List.foldlM_append, hinit]
      simp only [bind, Except.bind, List.foldlM_cons, List.foldlM_nil, push,
        (digit_facts (show n % 10 < 10 by omega)).1, hvalue, if_pos h]
      rfl

/-! ## Numerals -/

theorem read_write {bound n : Nat} (h : n < bound) : read bound (write n) = .ok n := by
  unfold read write
  rw [String.toList_ofList]
  split
  case h_1 hnil => exact absurd hnil (digits_ne_nil n)
  case h_4 => exact readDigits_digits h
  all_goals
    rename_i hsign
    obtain ⟨d, hd, hplus⟩ := digit_of_mem_digits (n := n) (c := '+') (by simp [hsign])
    exact absurd hplus.symm (digit_facts hd).2.1

theorem trim_write (n : Nat) : Text.trim (write n) = write n := by
  have hnone : ∀ c ∈ digits n, Text.isBlank c = false := by
    intro c hc
    obtain ⟨d, hd, rfl⟩ := digit_of_mem_digits hc
    exact (digit_facts hd).2.2
  have hkeep {text : List Char} (h : ∀ c ∈ text, Text.isBlank c = false) :
      text.dropWhile Text.isBlank = text := by
    cases text with
    | nil => rfl
    | cons c text => rw [List.dropWhile_cons_of_neg (by simp [h])]
  unfold Text.trim Text.stripEnds write
  rw [String.toList_ofList, hkeep hnone, hkeep (by simpa using hnone), List.reverse_reverse]

theorem write_ne_empty (n : Nat) : (write n).isEmpty = false := by
  simp [write, String.isEmpty_eq_false_iff, digits_ne_nil]

theorem notMem_write {c : Char} (h : ∀ d < 10, Char.ofNat ('0'.toNat + d) ≠ c) (n : Nat) :
    c ∉ (write n).toList := by
  intro hmem
  rw [write, String.toList_ofList] at hmem
  obtain ⟨d, hd, rfl⟩ := digit_of_mem_digits hmem
  exact h d hd rfl

end Stomp.Numeral

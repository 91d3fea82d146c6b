import Mathlib.Data.List.Induction
import Mathlib.Data.List.TakeWhile
import Mathlib.Data.Nat.Digits.Defs
import Stomp.Proofs.Text.Numeral

/-!
# Which texts are numerals

A text is read as a number exactly if it consists of decimal digits, perhaps
behind a plus sign (`read_eq_ok_iff`); blanks around it do not count where it is
trimmed before (`read_trim_eq_ok_iff`).
-/

namespace Stomp.Text

variable {drop : Char → Bool} {before core after : List Char}

theorem exists_stripEnds (drop : Char → Bool) (text : List Char) :
    ∃ before after, text = before ++ stripEnds drop text ++ after ∧
      (∀ c ∈ before, drop c = true) ∧ ∀ c ∈ after, drop c = true := by
  have hfront := List.takeWhile_append_dropWhile (p := drop) (l := text)
  have hback := List.takeWhile_append_dropWhile (p := drop) (l := (text.dropWhile drop).reverse)
  refine ⟨text.takeWhile drop, ((text.dropWhile drop).reverse.takeWhile drop).reverse, ?_, ?_, ?_⟩
  · rw [stripEnds, List.append_assoc, ← List.reverse_append, hback, List.reverse_reverse, hfront]
  · exact fun c hc => (List.mem_takeWhile_imp hc)
  · exact fun c hc => List.mem_takeWhile_imp (List.mem_reverse.mp hc)

theorem dropWhile_append_of_keeps (hbefore : ∀ c ∈ before, drop c = true)
    (hcore : ∀ c ∈ core, drop c = false) (hne : core ≠ []) :
    (before ++ (core ++ after)).dropWhile drop = core ++ after := by
  rw [List.dropWhile_append_of_pos hbefore]
  cases core with
  | nil => exact absurd rfl hne
  | cons c core =>
      rw [List.cons_append, List.dropWhile_cons_of_neg (by simp [hcore c List.mem_cons_self])]

theorem stripEnds_append (hbefore : ∀ c ∈ before, drop c = true)
    (hafter : ∀ c ∈ after, drop c = true) (hcore : ∀ c ∈ core, drop c = false)
    (hne : core ≠ []) : stripEnds drop (before ++ core ++ after) = core := by
  have hreverse : (core ++ after).reverse = after.reverse ++ (core.reverse ++ []) := by
    rw [List.reverse_append, List.append_nil]
  rw [stripEnds, List.append_assoc, dropWhile_append_of_keeps hbefore hcore hne, hreverse,
    dropWhile_append_of_keeps (by simpa using hafter) (by simpa using hcore) (by simpa using hne),
    List.append_nil, List.reverse_reverse]

end Stomp.Text

namespace Stomp.Numeral

variable {bound n : Nat} {text : List Char}

/-! ## Digits -/

def valueOf (digits : List Char) : Nat :=
  Nat.ofDigits 10 (digits.reverse.map fun c => c.toNat - '0'.toNat)

theorem valueOf_concat (digits : List Char) (c : Char) :
    valueOf (digits ++ [c]) = valueOf digits * 10 + (c.toNat - '0'.toNat) := by
  rw [valueOf, List.reverse_concat, List.map_cons, Nat.ofDigits_cons, valueOf]
  omega

theorem digit?_eq_some_iff {c : Char} {d : Nat} :
    digit? c = some d ↔ c.isDigit = true ∧ c.toNat - '0'.toNat = d := by
  have hdigit : ('0' ≤ c && c ≤ '9') = c.isDigit := rfl
  rw [digit?, hdigit]
  split <;> simp_all

theorem push_eq_ok_iff {m : Nat} {c : Char} :
    push bound m c = .ok n ↔
      c.isDigit = true ∧ m * 10 + (c.toNat - '0'.toNat) = n ∧ n < bound := by
  rw [push]
  cases hdigit : digit? c with
  | none =>
      have hno : c.isDigit = false := by
        cases hc : c.isDigit with
        | false => rfl
        | true => rw [digit?_eq_some_iff.mpr ⟨hc, rfl⟩] at hdigit; simp at hdigit
      simp [hno]
  | some d =>
      obtain ⟨hc, rfl⟩ := digit?_eq_some_iff.mp hdigit
      dsimp only
      split
      · next h =>
          rw [Except.ok.injEq]
          constructor
          · rintro rfl
            exact ⟨hc, rfl, h⟩
          · exact fun h => h.2.1
      · next h =>
          simp only [reduceCtorEq, false_iff, not_and]
          rintro - rfl
          exact h

theorem readDigits_concat (digits : List Char) (c : Char) :
    readDigits bound (digits ++ [c]) = .ok n ↔
      ∃ m, readDigits bound digits = .ok m ∧ push bound m c = .ok n := by
  unfold readDigits
  rw [List.foldlM_append]
  cases digits.foldlM (push bound) 0 with
  | error fault => simp [bind, Except.bind]
  | ok m =>
      simp only [List.foldlM_cons, List.foldlM_nil, Except.ok.injEq, exists_eq_left', bind,
        Except.bind, pure, Except.pure]
      cases push bound m c <;> rfl

theorem readDigits_eq_ok_iff (hbound : 0 < bound) :
    readDigits bound text = .ok n ↔
      (∀ c ∈ text, c.isDigit = true) ∧ valueOf text = n ∧ n < bound := by
  induction text using List.reverseRecOn generalizing n with
  | nil =>
      have hnil : readDigits bound [] = .ok 0 := rfl
      have hvalue : valueOf [] = 0 := rfl
      rw [hnil, hvalue, Except.ok.injEq]
      simp only [List.not_mem_nil, false_imp_iff, implies_true, true_and]
      omega
  | append_singleton digits c ih =>
      rw [readDigits_concat, valueOf_concat]
      simp only [ih, push_eq_ok_iff, List.forall_mem_append, List.forall_mem_singleton]
      constructor
      · rintro ⟨m, ⟨hdigits, rfl, -⟩, hc, hn, hlt⟩
        exact ⟨⟨hdigits, hc⟩, hn, hlt⟩
      · rintro ⟨⟨hdigits, hc⟩, hn, hlt⟩
        exact ⟨valueOf digits, ⟨hdigits, rfl, by omega⟩, hc, hn, hlt⟩

/-! ## Numerals -/

/-- Decimal digits, perhaps behind a plus sign, and the number that they write. -/
inductive IsNumeral : List Char → Nat → Prop
  | plain {digits : List Char} (hne : digits ≠ []) (hdigits : ∀ c ∈ digits, c.isDigit = true) :
      IsNumeral digits (valueOf digits)
  | signed {digits : List Char} (hne : digits ≠ []) (hdigits : ∀ c ∈ digits, c.isDigit = true) :
      IsNumeral ('+' :: digits) (valueOf digits)

theorem read_eq_ok_iff (hbound : 0 < bound) {text : String} :
    read bound text = .ok n ↔ IsNumeral text.toList n ∧ n < bound := by
  unfold read
  constructor
  · intro h
    split at h
    · simp at h
    · simp at h
    · next rest hrest htext =>
        obtain ⟨hdigits, rfl, hlt⟩ := (readDigits_eq_ok_iff hbound).mp h
        rw [htext]
        exact ⟨.signed hrest hdigits, hlt⟩
    · next hempty hplus hsign =>
        obtain ⟨hdigits, rfl, hlt⟩ := (readDigits_eq_ok_iff hbound).mp h
        exact ⟨.plain hempty hdigits, hlt⟩
  · rintro ⟨hnumeral, hlt⟩
    generalize text.toList = chars at hnumeral
    cases hnumeral with
    | plain hne hdigits =>
        have hread := (readDigits_eq_ok_iff hbound).mpr ⟨hdigits, rfl, hlt⟩
        split
        · exact absurd rfl hne
        · simp at hdigits
        · simp at hdigits
        · exact hread
    | @signed digits hne hdigits =>
        have hread := (readDigits_eq_ok_iff hbound).mpr ⟨hdigits, rfl, hlt⟩
        cases digits with
        | nil => exact absurd rfl hne
        | cons c digits => exact hread

def IsPadded (text : List Char) (n : Nat) : Prop :=
  ∃ before numeral after, text = before ++ numeral ++ after ∧
    (∀ c ∈ before ++ after, Text.isBlank c = true) ∧ IsNumeral numeral n

theorem not_isBlank_of_isDigit {c : Char} (h : c.isDigit = true) : Text.isBlank c = false := by
  have hrange : 48 ≤ c.toNat ∧ c.toNat ≤ 57 := by
    simpa [Char.isDigit, UInt32.le_iff_toNat_le] using h
  simp [Text.isBlank]
  omega

theorem IsNumeral.not_isBlank {text : List Char} (h : IsNumeral text n) :
    ∀ c ∈ text, Text.isBlank c = false := by
  cases h with
  | plain hne hdigits => exact fun c hc => not_isBlank_of_isDigit (hdigits c hc)
  | signed hne hdigits =>
      exact List.forall_mem_cons.mpr ⟨by decide, fun c hc => not_isBlank_of_isDigit (hdigits c hc)⟩

theorem IsNumeral.ne_nil {text : List Char} (h : IsNumeral text n) : text ≠ [] := by
  cases h with
  | plain hne => exact hne
  | signed => exact List.cons_ne_nil _ _

theorem IsPadded.notMem {text : List Char} (h : IsPadded text n) {c : Char}
    (hblank : Text.isBlank c = false) (hdigit : c.isDigit = false) (hplus : c ≠ '+') :
    c ∉ text := by
  obtain ⟨before, numeral, after, rfl, hends, hnumeral⟩ := h
  have hdigits {digits : List Char} (h : ∀ c ∈ digits, c.isDigit = true) : c ∉ digits :=
    fun hc => by simp [h c hc] at hdigit
  have hcore : c ∉ numeral := by
    cases hnumeral with
    | plain hne h => exact hdigits h
    | signed hne h => exact List.not_mem_cons_of_ne_of_not_mem hplus (hdigits h)
  have hout : c ∉ before ++ after := fun hc => by simp [hends c hc] at hblank
  simp only [List.mem_append, not_or] at hout ⊢
  exact ⟨⟨hout.1, hcore⟩, hout.2⟩

theorem read_trim_eq_ok_iff (hbound : 0 < bound) {text : String} :
    read bound (Text.trim text) = .ok n ↔ IsPadded text.toList n ∧ n < bound := by
  rw [read_eq_ok_iff hbound, Text.trim, String.toList_ofList]
  refine and_congr_left fun _ => ⟨fun hnumeral => ?_, ?_⟩
  · obtain ⟨before, after, htext, hbefore, hafter⟩ :=
      Text.exists_stripEnds Text.isBlank text.toList
    exact ⟨before, _, after, htext, List.forall_mem_append.mpr ⟨hbefore, hafter⟩, hnumeral⟩
  · rintro ⟨before, numeral, after, htext, hblank, hnumeral⟩
    obtain ⟨hbefore, hafter⟩ := List.forall_mem_append.mp hblank
    rwa [htext, Text.stripEnds_append hbefore hafter hnumeral.not_isBlank hnumeral.ne_nil]

end Stomp.Numeral

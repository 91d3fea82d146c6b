import Mathlib.Data.List.Basic
import Stomp.Proofs.Text.Numeral

/-!
# Visible text

Text of nothing but visible ASCII characters, and the ways in which the texts of
numbers and lists are put together from such text.
-/

namespace Stomp.Text

/-- The characters of ASCII that print and are no blanks. -/
def IsVisible (c : Char) : Prop := 0x20 < c.toNat ∧ c.toNat < 0x7F

instance : DecidablePred IsVisible := fun c =>
  inferInstanceAs (Decidable (0x20 < c.toNat ∧ c.toNat < 0x7F))

def AllVisible (text : String) : Prop := ∀ c ∈ text.toList, IsVisible c

instance : DecidablePred AllVisible := fun text =>
  List.decidableBAll IsVisible text.toList

namespace AllVisible

variable {first second : String}

theorem append (hfirst : AllVisible first) (hsecond : AllVisible second) :
    AllVisible (first ++ second) := by
  intro c hc
  rw [String.toList_append, List.mem_append] at hc
  exact hc.elim (hfirst c) (hsecond c)

theorem intercalate {separator : String} {texts : List String} (hseparator : AllVisible separator)
    (htexts : ∀ text ∈ texts, AllVisible text) :
    AllVisible (separator.intercalate texts) := by
  induction texts with
  | nil => simp [AllVisible]
  | cons text texts ih =>
      have hrest := ih fun other hother => htexts other (List.mem_cons_of_mem _ hother)
      have htext := htexts text List.mem_cons_self
      cases texts with
      | nil => simpa using htext
      | cons next texts =>
          rw [String.intercalate_cons_cons]
          exact (htext.append hseparator).append hrest

end AllVisible

/-! ## Numbers -/

theorem allVisible_write (n : Nat) : AllVisible (Numeral.write n) := by
  intro c hc
  rw [Numeral.write, String.toList_ofList] at hc
  obtain ⟨d, hd, rfl⟩ := Numeral.digit_of_mem_digits hc
  exact (by decide : ∀ d < 10, IsVisible (Char.ofNat ('0'.toNat + d))) d hd

end Stomp.Text

import ByteTape.Text.Decimal
import Mathlib.Tactic.Common

/-!
# Numbers read back

`toString` shows a number in decimal digits, and `natural?` reads it back from these. The first
digit is no plus sign, so the number is read from all of them.
-/

namespace ByteTape

namespace Text

theorem toList_toString (number : Nat) : (toString number).toList = Nat.toDigits 10 number := by
  rw [Nat.toString_eq_repr, Nat.toList_repr]

theorem isDigit_of_mem_toString {number : Nat} {c : Char} (h : c ∈ (toString number).toList) :
    c.isDigit = true := by
  rw [toList_toString] at h
  exact Nat.isDigit_of_mem_toDigits (by decide) (by decide) h

theorem digits?_of_isDigit {digits : List Char} (h : ∀ c ∈ digits, c.isDigit = true)
    (value : Nat) : digits? value digits = some (Nat.ofDigitChars 10 digits value) := by
  induction digits generalizing value with
  | nil => rfl
  | cons c rest ih =>
      rw [digits?, if_pos (h c List.mem_cons_self), ih fun d hd => h d (List.mem_cons_of_mem c hd),
        Nat.ofDigitChars_cons, Nat.mul_comm]

theorem natural?_toString (number : Nat) : natural? (toString number) = some number := by
  have hdigits := @isDigit_of_mem_toString number
  have hne : (toString number).toList ≠ [] := by
    rw [toList_toString]
    exact Nat.toDigits_ne_nil
  unfold natural?
  split
  · contradiction
  · next hplus => exact absurd (hdigits (hplus ▸ List.mem_cons_self)) (by decide)
  · next hplus => exact absurd (hdigits (hplus ▸ List.mem_cons_self)) (by decide)
  · rw [digits?_of_isDigit fun _ => hdigits, toList_toString, Nat.ofDigitChars_ten_toDigits]

end Text

end ByteTape

import Mathlib.Data.List.Basic
import ApiClient.Number.Notation

/-! Characters of written numbers. A number in plain notation is never empty and has nothing in it
but digits, a sign, a point and the letters of the words for what is not finite. -/

set_option autoImplicit false

namespace ApiClient.Number

def IsNumeral (c : Char) : Prop :=
  c.isDigit = true ∨ c ∈ ['-', '.', 'N', 'a', 'I', 'n', 'f', 'i', 't', 'y']

instance (c : Char) : Decidable (IsNumeral c) :=
  inferInstanceAs (Decidable (_ ∨ _))

def Numerals (text : String) : Prop :=
  ∀ c ∈ text.toList, IsNumeral c

instance (text : String) : Decidable (Numerals text) :=
  List.decidableBAll IsNumeral text.toList

theorem Numerals.append {front back : String} (first : Numerals front) (second : Numerals back) :
    Numerals (front ++ back) := by
  unfold Numerals at *
  rw [String.toList_append]
  exact List.forall_mem_append.2 ⟨first, second⟩

namespace Decimal

theorem isDigit_of_mem_digits {n : Nat} {c : Char} (member : c ∈ digits n) : c.isDigit = true :=
  Nat.isDigit_of_mem_toDigits (by decide) (by decide) member

theorem digits_ne_nil (n : Nat) : digits n ≠ [] :=
  Nat.toDigits_ne_nil

end Decimal

open Decimal

theorem numerals_digits {cs : List Char} {n : Nat} (subset : cs ⊆ digits n) :
    Numerals (String.ofList cs) := by
  intro c member
  rw [String.toList_ofList] at member
  exact .inl (isDigit_of_mem_digits (subset member))

theorem numerals_zeros (count : Nat) : Numerals (zeros count) := by
  intro c member
  rw [zeros, String.toList_ofList] at member
  rw [List.eq_of_mem_replicate member]
  decide

theorem numerals_signText (negative : Bool) : Numerals (signText negative) := by
  cases negative <;> decide

theorem numerals_wholeText (n : Int) : Numerals (wholeText n) :=
  (numerals_signText _).append (numerals_digits (List.Subset.refl _))

theorem numerals_positional {whole : String} (ending : Numerals whole) (decimal : Decimal) :
    Numerals (positional whole decimal) := by
  have digits {cs : List Char} := @numerals_digits cs decimal.coefficient
  have point : Numerals "." := by decide
  have zero : Numerals "0." := by decide
  simp only [positional]
  split
  · exact ((digits (List.Subset.refl _)).append (numerals_zeros _)).append ending
  · split
    · exact ((digits (List.take_subset _ _)).append point).append (digits (List.drop_subset _ _))
    · exact (zero.append (numerals_zeros _)).append (digits (List.Subset.refl _))

theorem numerals_plainText (value : Binary64) : Numerals value.plainText := by
  cases value with
  | notANumber => decide
  | infinite negative => exact (numerals_signText negative).append (by decide)
  | finite negative significand power normal =>
    refine (numerals_signText negative).append ?_
    split
    · decide
    · exact numerals_positional (by decide) _

theorem wholeText_ne_empty (n : Int) : wholeText n ≠ "" := by
  simp [wholeText, digits_ne_nil]

theorem positional_ne_empty (whole : String) (decimal : Decimal) :
    positional whole decimal ≠ "" := by
  simp only [positional]
  split
  · simp [digits_ne_nil]
  · split <;> simp

theorem plainText_ne_empty (value : Binary64) : value.plainText ≠ "" := by
  cases value with
  | notANumber => decide
  | infinite negative => simp [Binary64.plainText]
  | finite negative significand power normal =>
    simp only [Binary64.plainText]
    split <;> simp [positional_ne_empty]

end ApiClient.Number

import ApiClient.Json.Quoted
import Mathlib.Data.Char
import Mathlib.Data.Option.Basic

/-! Strings read back as they were written, whatever characters they hold: the escapes of a written
string are among those that are read, and everything else stands for itself. -/

set_option autoImplicit false

namespace ApiClient.Json.Quoted

theorem hexValue?_hexDigit : ∀ n < 16, hexValue? (hexDigit n) = some n := by decide

theorem unit?_hexDigits {n : Nat} (control : n < 0x20) :
    unit? '0' '0' (hexDigit (n / 16)) (hexDigit (n % 16)) = some n := by
  have zero : hexValue? '0' = some 0 := by decide
  have high := hexValue?_hexDigit (n / 16) (by omega)
  have low := hexValue?_hexDigit (n % 16) (by omega)
  simp only [unit?, zero, high, low, Option.bind_eq_bind, Option.bind_some, Option.pure_def,
    Option.some.injEq]
  omega

theorem readBody?_escape {letter c : Char} (escape : simpleEscape? letter = some c)
    (rest : List Char) :
    readBody? ('\\' :: letter :: rest) =
      (readBody? rest).map fun (body, left) => (c :: body, left) := by
  have other : letter ≠ 'u' := by
    rintro rfl
    simp [simpleEscape?] at escape
  rw [readBody?, escape]
  · cases readBody? rest <;> rfl
  · exact fun _ _ _ _ _ unicode _ => other unicode

theorem readBody?_writeChar (c : Char) (rest : List Char) :
    readBody? (writeChar c ++ rest) =
      (readBody? rest).map fun (body, left) => (c :: body, left) := by
  unfold writeChar
  split
  case h_8 quote slash feed carriage tab backspace formFeed =>
    split
    · next control =>
      -- control characters lie below the surrogates
      have leading : isLeading c.toNat = false := by
        simp only [isLeading, Bool.and_eq_false_iff, decide_eq_false_iff_not]
        omega
      have trailing : isTrailing c.toNat = false := by
        simp only [isTrailing, Bool.and_eq_false_iff, decide_eq_false_iff_not]
        omega
      simp only [List.cons_append, List.nil_append, readBody?, unit?_hexDigits control,
        Option.bind_eq_bind, Option.bind_some, leading, trailing, Char.ofNat_toNat,
        Bool.false_eq_true, if_false]
      cases readBody? rest <;> rfl
    · next control =>
      have plain : ¬ (c.toNat < 0x20 ∨ c = '\\') := not_or.2 ⟨control, slash⟩
      rw [List.singleton_append, readBody?.eq_def]
      split <;> simp_all
  all_goals exact readBody?_escape rfl rest

theorem readBody?_write (text rest : List Char) :
    readBody? (text.flatMap writeChar ++ '"' :: rest) = some (text, rest) := by
  induction text with
  | nil => rfl
  | cons c text ih =>
    rw [List.flatMap_cons, List.append_assoc, readBody?_writeChar, ih]
    rfl

theorem toList_write (text : String) :
    (write text).toList = '"' :: (text.toList.flatMap writeChar ++ ['"']) := by
  simp [write]

end ApiClient.Json.Quoted

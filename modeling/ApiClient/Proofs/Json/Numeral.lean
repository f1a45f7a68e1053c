import Mathlib.Data.List.Basic
import Mathlib.Data.List.TakeWhile
import Mathlib.Tactic.IntervalCases
import ApiClient.Json.Numeral
import ApiClient.Proofs.Number.Notation

/-! Numbers in the middle of a text.

A number is read to its last character, whatever follows it in an array or an object. So reading
it alone decides how it is read anywhere, and an integer of 64 bits reads back as itself.
-/

set_option autoImplicit false

namespace ApiClient.Json

open ApiClient.Number

/-- What can follow a value inside an array or an object, and the end of a text. -/
def Follows : List Char → Prop
  | [] => True
  | c :: _ => c = ',' ∨ c = ']' ∨ c = '\x7d'

/-- A number as it is written is read as that number. -/
def ReadsBack (value : Binary64) : Prop :=
  ∃ text, value.dataText? = some text ∧
    Numeral.read? text.toList = some (.double value, [])

namespace Numeral

variable {rest : List Char}

theorem spanDigits_of_follows (follows : Follows rest) : spanDigits rest = ([], rest) := by
  cases rest with
  | nil => rfl
  | cons c rest => rcases follows with rfl | rfl | rfl <;> rfl

theorem spanDigits_append (follows : Follows rest) (cs : List Char) :
    spanDigits (cs ++ rest) = ((spanDigits cs).1, (spanDigits cs).2 ++ rest) := by
  induction cs with
  | nil => exact spanDigits_of_follows follows
  | cons c cs ih =>
    obtain ⟨digits, others⟩ := Prod.mk.inj ih
    by_cases digit : c.isDigit = true
    · simp [spanDigits, digit, digits, others]
    · simp [spanDigits, digit]

/-- Reading from the front of a text, where what follows is left alone. -/
def Leaves {α : Type} (read : List Char → Option (α × List Char)) : Prop :=
  ∀ cs rest, Follows rest → ∀ value left, read cs = some (value, left) →
    read (cs ++ rest) = some (value, left ++ rest)

theorem whole?_leaves : Leaves whole? := by
  intro cs rest follows ds left read
  unfold whole? at read ⊢
  rw [spanDigits_append follows]
  generalize spanDigits cs = found at read ⊢
  obtain ⟨digits, others⟩ := found
  split at read <;> simp_all

theorem part?_leaves : Leaves part? := by
  intro cs rest follows ds left read
  cases cs with
  | nil =>
    obtain ⟨rfl, rfl⟩ : none = ds ∧ [] = left := by simpa [part?] using read
    cases rest with
    | nil => rfl
    | cons c rest => rcases follows with rfl | rfl | rfl <;> rfl
  | cons c cs =>
    by_cases point : c = '.'
    · subst point
      simp only [List.cons_append, part?, spanDigits_append follows] at read ⊢
      generalize spanDigits cs = found at read ⊢
      obtain ⟨digits, others⟩ := found
      cases digits <;> simp_all
    · obtain ⟨rfl, rfl⟩ : none = ds ∧ c :: cs = left := by simpa [part?, point] using read
      simp [part?, point]

theorem takeSign_append {cs : List Char} (filled : cs ≠ []) :
    takeSign (cs ++ rest) = ((takeSign cs).1, (takeSign cs).2 ++ rest) := by
  cases cs with
  | nil => contradiction
  | cons c cs =>
    by_cases minus : c = '-'
    · subst minus
      rfl
    by_cases plus : c = '+'
    · subst plus
      rfl
    simp [takeSign, minus, plus]

theorem power?_leaves : Leaves power? := by
  intro cs rest follows power left read
  cases cs with
  | nil =>
    obtain ⟨rfl, rfl⟩ : none = power ∧ [] = left := by simpa [power?] using read
    cases rest with
    | nil => rfl
    | cons c rest => rcases follows with rfl | rfl | rfl <;> rfl
  | cons c cs =>
    by_cases letter : c = 'e' ∨ c = 'E'
    · -- a letter alone has no power, so a sign after it is one that was there before
      have filled : cs ≠ [] := by
        rintro rfl
        simp [power?, letter, takeSign, spanDigits] at read
      simp only [List.cons_append, power?, letter, if_true, takeSign_append filled,
        spanDigits_append follows] at read ⊢
      generalize spanDigits (takeSign cs).2 = found at read ⊢
      obtain ⟨digits, others⟩ := found
      cases digits <;> simp_all
    · obtain ⟨rfl, rfl⟩ : none = power ∧ c :: cs = left := by simpa [power?, letter] using read
      simp [power?, letter]

theorem unsigned?_leaves (negative : Bool) : Leaves (unsigned? negative) := by
  intro cs rest follows value left read
  simp only [unsigned?, Option.bind_eq_bind, Option.bind_eq_some_iff, Option.pure_def,
    Prod.exists] at read ⊢
  obtain ⟨whole, afterWhole, first, part, afterPart, second, power, afterPower, third, found⟩ :=
    read
  refine ⟨whole, _, whole?_leaves _ _ follows _ _ first, part, _,
    part?_leaves _ _ follows _ _ second, power, _, power?_leaves _ _ follows _ _ third, ?_⟩
  -- the value depends on what has been read and not on what is left
  cases part <;> cases power
  all_goals
    obtain ⟨_, same, eq⟩ := Option.bind_eq_some_iff.1 found
    cases eq
    exact Option.bind_eq_some_iff.2 ⟨_, same, rfl⟩

theorem exists_of_read? {cs : List Char} {value : Json} {left : List Char}
    (read : read? cs = some (value, left)) :
    ∃ c tail, cs = c :: tail ∧ (c = '-' ∨ c.isDigit = true) := by
  cases cs with
  | nil => simp [read?, unsigned?, whole?, spanDigits] at read
  | cons c tail =>
    refine ⟨c, tail, rfl, ?_⟩
    by_contra other
    obtain ⟨minus, digit⟩ := not_or.1 other
    simp [read?, minus, unsigned?, whole?, spanDigits, digit] at read

theorem read?_leaves : Leaves read? := by
  intro cs rest follows value left read
  obtain ⟨c, tail, rfl, -⟩ := exists_of_read? read
  by_cases minus : c = '-'
  · subst minus
    exact unsigned?_leaves true tail rest follows value left read
  · have plain : ∀ others, read? (c :: others) = unsigned? false (c :: others) := by
      intro others
      simp [read?, minus]
    rw [plain] at read
    rw [List.cons_append, plain]
    exact unsigned?_leaves false (c :: tail) rest follows value left read

theorem digitsValue_digits (n : Nat) : digitsValue (Decimal.digits n) = n := by
  have value : ∀ (cs : List Char) (init : Nat),
      cs.foldl (fun value d => value * 10 + digitValue d) init = Nat.ofDigitChars 10 cs init := by
    intro cs init
    rw [Nat.ofDigitChars_eq_foldl]
    simp only [Nat.mul_comm, digitValue]
  rw [digitsValue, value]
  exact Nat.ofDigitChars_ten_toDigits

theorem spanDigits_digits (n : Nat) : spanDigits (Decimal.digits n) = (Decimal.digits n, []) := by
  have all : ∀ c ∈ Decimal.digits n, c.isDigit = true := fun c => Decimal.isDigit_of_mem_digits
  rw [spanDigits, List.takeWhile_eq_self_iff.2 all, List.dropWhile_eq_nil_iff.2 all]

theorem head?_digits_ne_zero {n : Nat} (positive : 0 < n) :
    (Decimal.digits n).head? ≠ some '0' := by
  induction n using Nat.strong_induction_on with
  | _ n ih =>
    unfold Decimal.digits at ih ⊢
    by_cases small : n < 10
    · rw [Nat.toDigits_of_lt_base small]
      interval_cases n <;> decide
    · have front : (Nat.toDigits 10 (n / 10)).head? ≠ some '0' :=
        ih (n / 10) (by omega) (by omega)
      rw [Nat.toDigits_of_base_le (by decide) (by omega),
        List.head?_append_of_ne_nil _ Nat.toDigits_ne_nil]
      exact front

theorem whole?_digits (n : Nat) : whole? (Decimal.digits n) = some (Decimal.digits n, []) := by
  have filled : Decimal.digits n ≠ [] := Nat.toDigits_ne_nil
  have leading : ∀ d ds, Decimal.digits n ≠ '0' :: d :: ds := by
    intro d ds eq
    rcases Nat.eq_zero_or_pos n with rfl | positive
    · simp [Decimal.digits] at eq
    · exact head?_digits_ne_zero positive (by rw [eq]; rfl)
  unfold whole?
  rw [spanDigits_digits]
  split <;> simp_all

theorem unsigned?_digits (negative : Bool) (n : Nat) :
    unsigned? negative (Decimal.digits n) =
      (integral? negative (Decimal.digits n)).map fun value => (value, []) := by
  simp only [unsigned?, whole?_digits, part?, power?, Option.bind_eq_bind, Option.bind_some]
  cases integral? negative (Decimal.digits n) <;> rfl

def IsWord (n : Int) : Prop :=
  -(2 ^ 63 : Int) ≤ n ∧ n < 2 ^ 63

instance (n : Int) : Decidable (IsWord n) :=
  inferInstanceAs (Decidable (_ ∧ _))

theorem read?_wholeText {n : Int} (fits : IsWord n) :
    read? (wholeText n).toList = some (.integer n, []) := by
  obtain ⟨low, high⟩ := fits
  have word : Nat.pow 2 63 = 9223372036854775808 := by decide
  by_cases negative : n < 0
  · have magnitude : 0 < n.natAbs ∧ n.natAbs ≤ Nat.pow 2 63 := by omega
    have text : (wholeText n).toList = '-' :: Decimal.digits n.natAbs := by
      simp [wholeText, signText, negative]
    have back : -(n.natAbs : Int) = n := by omega
    rw [text, read?, unsigned?_digits, integral?, digitsValue_digits]
    simp only [magnitude, if_true, and_self, back, Option.map_some]
  · have magnitude : n.natAbs < Nat.pow 2 63 := by omega
    have text : (wholeText n).toList = Decimal.digits n.natAbs := by
      simp [wholeText, signText, negative]
    have back : (n.natAbs : Int) = n := by omega
    have unsigned : read? (Decimal.digits n.natAbs) =
        unsigned? false (Decimal.digits n.natAbs) := by
      unfold read?
      split
      · next rest eq =>
        have digit := Decimal.isDigit_of_mem_digits (n := n.natAbs) (c := '-') (by simp [eq])
        exact absurd digit (by decide)
      · rfl
    rw [text, unsigned, unsigned?_digits, integral?, digitsValue_digits]
    simp only [magnitude, if_true, back, Option.map_some, Bool.false_eq_true, if_false]

end Numeral

end ApiClient.Json

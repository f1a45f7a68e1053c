import ApiClient.Number.Binary64

/-! Decimal digits of finite numbers.

A decimal is a coefficient and a power of ten. `shortest` looks for the fewest significant digits
that read back as the number: for each count of digits it tries the two neighbours of the exact
value on that decimal grid, and of two that read back it takes the nearer one. If no grid has
one, the exact value stands.
-/

set_option autoImplicit false

namespace ApiClient.Number

structure Decimal where
  coefficient : Nat
  exponent : Int
  deriving DecidableEq

/-- Which neighbour is taken when both are equally near. -/
inductive Tie where
  | upward
  | toEven

namespace Decimal

def digits (n : Nat) : List Char :=
  Nat.toDigits 10 n

/-- The same value without zeros at the end of the coefficient; `fuel` bounds their number. -/
def trim : Nat → Decimal → Decimal
  | 0, decimal => decimal
  | fuel + 1, ⟨coefficient, exponent⟩ =>
    if coefficient ≠ 0 ∧ coefficient % 10 = 0 then trim fuel ⟨coefficient / 10, exponent + 1⟩
    else ⟨coefficient, exponent⟩

def readsBack (significand : Nat) (power : Int) (decimal : Decimal) : Bool :=
  match Binary64.ofDecimal false decimal.coefficient decimal.exponent with
  | .finite _ m q _ => m == significand && q == power
  | _ => false

/-- The power of ten of the first digit of a positive fraction that is at least `10 ^ -400`. -/
def leadingPower (numerator denominator : Nat) : Int :=
  ((digits (numerator * Nat.pow 10 400 / denominator)).length : Int) - 401

/-- The decimal of `count` digits that reads back and lies nearest. -/
def onGrid? (tie : Tie) (significand : Nat) (power : Int) (count : Nat) : Option Decimal :=
  let (numerator, denominator) := Binary64.fraction significand power
  let exponent := leadingPower numerator denominator - count + 1
  let (n, d) := Binary64.scaled numerator denominator 10 (-exponent)
  let below : Decimal := ⟨n / d, exponent⟩
  let above : Decimal := ⟨n / d + 1, exponent⟩
  let twice := 2 * (n % d)
  let belowIsNearer := twice < d || (twice == d && match tie with
    | .upward => false
    | .toEven => n / d % 2 == 0)
  let nearer := if belowIsNearer then below else above
  let farther := if belowIsNearer then above else below
  if readsBack significand power nearer then some nearer
  else if readsBack significand power farther then some farther
  else none

/-- The value itself: a power of two below one is a power of five over a power of ten. -/
def exact (significand : Nat) (power : Int) : Decimal :=
  if 0 ≤ power then ⟨significand * Nat.pow 2 power.toNat, 0⟩
  else ⟨significand * Nat.pow 5 (-power).toNat, power⟩

/-- The fewest digits, 17 at most, that read back as a positive finite number. -/
def shortest (tie : Tie) (significand : Nat) (power : Int) : Decimal :=
  match (List.range 17).findSome? fun n => onGrid? tie significand power (n + 1) with
  | some decimal => trim 18 decimal
  | none => exact significand power

end Decimal

end ApiClient.Number

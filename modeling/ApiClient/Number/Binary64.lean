/-! Binary floating-point numbers of 64 bits.

A finite number is a sign, a significand and a power of two. Each value has one such form: the
significand fills 53 bits, unless the power is the least one. Arithmetic is exact arithmetic on
natural numbers followed by one rounding to the nearest number, ties to an even significand.
-/

set_option autoImplicit false

namespace ApiClient.Number

def leastPower : Int := -1074
def greatestPower : Int := 971

/-- The one form of a value as `significand * 2 ^ power`. -/
def IsNormalForm (significand : Nat) (power : Int) : Prop :=
  significand < Nat.pow 2 53 ∧ leastPower ≤ power ∧ power ≤ greatestPower ∧
    (Nat.pow 2 52 ≤ significand ∨ power = leastPower)

instance (significand : Nat) (power : Int) : Decidable (IsNormalForm significand power) := by
  unfold IsNormalForm
  infer_instance

inductive Binary64 where
  | notANumber
  | infinite (negative : Bool)
  | finite (negative : Bool) (significand : Nat) (power : Int)
      (normal : IsNormalForm significand power)
  deriving DecidableEq

namespace Binary64

def zero (negative : Bool) : Binary64 :=
  .finite negative 0 leastPower (by decide)

def isFinite : Binary64 → Bool
  | .finite .. => true
  | _ => false

def scaled (numerator denominator base : Nat) (power : Int) : Nat × Nat :=
  if 0 ≤ power then (numerator * Nat.pow base power.toNat, denominator)
  else (numerator, denominator * Nat.pow base (-power).toNat)

def floorLog2 (numerator denominator : Nat) : Int :=
  let guess : Int := numerator.log2 - denominator.log2
  let (n, d) := scaled numerator denominator 2 (-guess)
  if n < d then guess - 1 else guess

def roundToEven (numerator denominator : Nat) : Nat :=
  let quotient := numerator / denominator
  let twice := 2 * (numerator % denominator)
  if twice < denominator then quotient
  else if denominator < twice then quotient + 1
  else quotient + quotient % 2

def ofFraction (negative : Bool) (numerator denominator : Nat) : Binary64 :=
  if numerator = 0 then zero negative
  else
    let power := max (floorLog2 numerator denominator - 52) leastPower
    let (n, d) := scaled numerator denominator 2 (-power)
    let rounded := roundToEven n d
    if normal : IsNormalForm rounded power then .finite negative rounded power normal
    else if carried : IsNormalForm (Nat.pow 2 52) (power + 1) then
      .finite negative (Nat.pow 2 52) (power + 1) carried
    else .infinite negative

def ofNat (n : Nat) : Binary64 :=
  ofFraction false n 1

def fraction (significand : Nat) (power : Int) : Nat × Nat :=
  scaled significand 1 2 power

def negate : Binary64 → Binary64
  | .notANumber => .notANumber
  | .infinite negative => .infinite !negative
  | .finite negative significand power normal => .finite (!negative) significand power normal

def mul : Binary64 → Binary64 → Binary64
  | .finite s m p _, .finite t n q _ =>
    let (numerator, denominator) := fraction (m * n) (p + q)
    ofFraction (s != t) numerator denominator
  | _, _ => .notANumber

/-- The quotient of two finite numbers; any other operand and the divisor zero give no number. -/
def div : Binary64 → Binary64 → Binary64
  | .finite s m p _, .finite t n q _ =>
    if n = 0 then .notANumber
    else
      let (numerator, denominator) := scaled m n 2 (p - q)
      ofFraction (s != t) numerator denominator
  | _, _ => .notANumber

/-- The number nearest to `coefficient * 10 ^ exponent`. An exponent far outside the range of
finite numbers is decided by its sign, without computing the power. -/
def ofDecimal (negative : Bool) (coefficient : Nat) (exponent : Int) : Binary64 :=
  if coefficient = 0 then zero negative
  else if 400 < exponent then .infinite negative
  else if exponent + (coefficient.log2 + 1 : Nat) < -400 then zero negative
  else
    let (numerator, denominator) := scaled coefficient 1 10 exponent
    ofFraction negative numerator denominator

end Binary64

end ApiClient.Number

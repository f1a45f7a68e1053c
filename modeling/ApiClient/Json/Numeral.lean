import ApiClient.Json.Basic
import ApiClient.Number.Reading

/-! Numbers of a data text.

A numeral without fraction and exponent that fits a signed 64-bit word is an integer, except for
minus zero. Any other numeral is a double: its leading digits, as many as fit an unsigned 64-bit
word, are rounded once, and the result is multiplied or divided by a power of ten. A numeral
beyond the greatest double is refused.
-/

set_option autoImplicit false

namespace ApiClient.Json.Numeral

open ApiClient.Number

def greatestWord : Nat := Nat.pow 2 64 - 1

/-- Appends digits to a significand while it fits a word; counts those taken and those left. -/
def takeDigits (significand : Nat) : List Char → Nat × Nat × Nat
  | [] => (significand, 0, 0)
  | d :: ds =>
    let next := significand * 10 + digitValue d
    if greatestWord < next then (significand, 0, ds.length + 1)
    else
      let (result, taken, left) := takeDigits next ds
      (result, taken + 1, left)

def powerOfTen (exponent : Nat) : Binary64 :=
  .ofDecimal false 1 exponent

/-- A number times a power of ten. A power below `10 ^ -308` is divided out in several steps,
of which the last can only yield zero. -/
def scale : Nat → Binary64 → Int → Option Binary64
  | steps, value, exponent =>
    if exponent.natAbs ≤ 308 then
      if 0 ≤ exponent then
        let product := value.mul (powerOfTen exponent.natAbs)
        if product.isFinite then some product else none
      else some (value.div (powerOfTen exponent.natAbs))
    else if value = .zero false then some value
    else if 0 ≤ exponent then none
    else
      match steps with
      | 0 => some (.zero false)
      | steps + 1 => scale steps (value.div (powerOfTen 308)) (exponent + 308)

def double? (negative : Bool) (whole part : List Char) (exponent : Int) : Option Json := do
  let (significand, _, left) := takeDigits 0 whole
  let (significand, taken, _) := takeDigits significand part
  let value ← scale 3 (.ofNat significand) (exponent + left - taken)
  return .double (if negative then value.negate else value)

def integral? (negative : Bool) (whole : List Char) : Option Json :=
  let magnitude := digitsValue whole
  if negative then
    if 0 < magnitude ∧ magnitude ≤ Nat.pow 2 63 then some (.integer (-magnitude))
    else double? true whole [] 0
  else if magnitude < Nat.pow 2 63 then some (.integer magnitude)
  else double? false whole [] 0

def whole? (cs : List Char) : Option (List Char × List Char) :=
  match spanDigits cs with
  | ([], _) => none
  | ('0' :: _ :: _, _) => none
  | found => some found

def part? : List Char → Option (Option (List Char) × List Char)
  | '.' :: rest =>
    match spanDigits rest with
    | ([], _) => none
    | (ds, rest) => some (some ds, rest)
  | cs => some (none, cs)

def power? : List Char → Option (Option Int × List Char)
  | [] => some (none, [])
  | c :: rest =>
    if c = 'e' ∨ c = 'E' then
      let (negative, rest) := takeSign rest
      match spanDigits rest with
      | ([], _) => none
      | (ds, rest) => some (some (if negative then -(digitsValue ds : Int) else digitsValue ds), rest)
    else some (none, c :: rest)

def unsigned? (negative : Bool) (cs : List Char) : Option (Json × List Char) := do
  let (whole, cs) ← whole? cs
  let (part, cs) ← part? cs
  let (power, cs) ← power? cs
  let value ← match part, power with
    | none, none => integral? negative whole
    | _, _ => double? negative whole (part.getD []) (power.getD 0)
  return (value, cs)

def read? : List Char → Option (Json × List Char)
  | '-' :: rest => unsigned? true rest
  | cs => unsigned? false cs

end ApiClient.Json.Numeral

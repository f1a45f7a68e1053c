import ApiClient.Number.Decimal

/-! Written forms of numbers.

Plain notation never has an exponent and writes whole numbers without a point. Data notation
keeps a point in every finite number, and has an exponent outside a range of magnitudes. Both use
the fewest digits that read back.
-/

set_option autoImplicit false

namespace ApiClient.Number

open Decimal

def signText (negative : Bool) : String :=
  if negative then "-" else ""

def zeros (count : Nat) : String :=
  String.ofList (List.replicate count '0')

def wholeText (n : Int) : String :=
  signText (decide (n < 0)) ++ String.ofList (digits n.natAbs)

/-- Digits with the point where the exponent puts it; `whole` follows a number without a
fraction. -/
def positional (whole : String) (decimal : Decimal) : String :=
  let ds := digits decimal.coefficient
  let point := (ds.length : Int) + decimal.exponent
  if 0 ≤ decimal.exponent then
    String.ofList ds ++ zeros decimal.exponent.toNat ++ whole
  else if 0 < point then
    String.ofList (ds.take point.toNat) ++ "." ++ String.ofList (ds.drop point.toNat)
  else
    "0." ++ zeros (-point).toNat ++ String.ofList ds

def scientific (decimal : Decimal) : String :=
  let ds := digits decimal.coefficient
  let power := (ds.length : Int) - 1 + decimal.exponent
  let fractionText := if ds.length ≤ 1 then "" else "." ++ String.ofList (ds.drop 1)
  String.ofList (ds.take 1) ++ fractionText ++ "e" ++ (if power < 0 then "" else "+") ++
    wholeText power

def Binary64.plainText : Binary64 → String
  | .notANumber => "NaN"
  | .infinite negative => signText negative ++ "Infinity"
  | .finite negative significand power _ =>
    signText negative ++
      if significand = 0 then "0" else positional "" (shortest .upward significand power)

/-- Data notation; a tie between two shortest forms goes to the even digit, and what is not
finite has no text. -/
def Binary64.dataText? : Binary64 → Option String
  | .finite negative significand power _ =>
    let decimal := shortest .toEven significand power
    let leading := ((digits decimal.coefficient).length : Int) - 1 + decimal.exponent
    some (signText negative ++
      if significand = 0 then "0.0"
      else if -5 ≤ leading ∧ leading ≤ 15 then positional ".0" decimal
      else scientific decimal)
  | _ => none

end ApiClient.Number

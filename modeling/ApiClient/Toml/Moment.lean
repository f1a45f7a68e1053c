import ApiClient.Number.Reading

/-! Dates and times of a configuration text.

A moment is a date, a time, or both with a letter or a blank between them; only a date with a
time may have an offset. Seconds may be left out. Every part has to lie in its range.
-/

set_option autoImplicit false

namespace ApiClient.Toml.Moment

open ApiClient.Number

def two? : List Char → Option (Nat × List Char)
  | a :: b :: rest =>
    if a.isDigit && b.isDigit then some (digitsValue [a, b], rest) else none
  | _ => none

def expect? (c : Char) : List Char → Option (List Char)
  | head :: rest => if head = c then some rest else none
  | [] => none

def isLeapYear (year : Nat) : Bool :=
  year % 4 == 0 && (year % 100 != 0 || year % 400 == 0)

def daysOfMonth (year month : Nat) : Nat :=
  if month = 2 then if isLeapYear year then 29 else 28
  else if month ∈ [4, 6, 9, 11] then 30
  else 31

def date? (cs : List Char) : Option (List Char) := do
  let (century, cs) ← two? cs
  let (year, cs) ← two? cs
  let cs ← expect? '-' cs
  let (month, cs) ← two? cs
  let cs ← expect? '-' cs
  let (day, cs) ← two? cs
  if 1 ≤ month ∧ month ≤ 12 ∧ 1 ≤ day ∧ day ≤ daysOfMonth (century * 100 + year) month then
    return cs
  else none

def fraction? : List Char → Option (List Char)
  | '.' :: rest =>
    match spanDigits rest with
    | ([], _) => none
    | (_, rest) => some rest
  | cs => some cs

def seconds? : List Char → Option (List Char)
  | ':' :: rest => do
    let (second, rest) ← two? rest
    if second ≤ 60 then fraction? rest else none
  | cs => some cs

def time? (cs : List Char) : Option (List Char) := do
  let (hour, cs) ← two? cs
  let cs ← expect? ':' cs
  let (minute, cs) ← two? cs
  if hour ≤ 23 ∧ minute ≤ 59 then seconds? cs else none

def isOffset : List Char → Bool
  | [] => true
  | ['Z'] => true
  | ['z'] => true
  | sign :: rest =>
    (sign == '+' || sign == '-') &&
    match two? rest with
    | some (hour, ':' :: rest) =>
      match two? rest with
      | some (minute, []) => hour ≤ 23 && minute ≤ 59
      | _ => false
    | _ => false

def isDate (cs : List Char) : Bool :=
  date? cs == some []

def isMoment (cs : List Char) : Bool :=
  match date? cs with
  | none => time? cs == some []
  | some [] => true
  | some (between :: rest) =>
    (between == 'T' || between == 't' || between == ' ') &&
    match time? rest with
    | some offset => isOffset offset
    | none => false

end ApiClient.Toml.Moment

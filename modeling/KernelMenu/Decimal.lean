/-!
Decimal numbers as they are written: digits and a power of ten. What is asked of them is whether
they are in the range of a 64-bit float, and how they read without an exponent.
-/

namespace KernelMenu

def digitValue? (base : Nat) (char : Char) : Option Nat :=
  let value? :=
    if char.isDigit then some (char.toNat - '0'.toNat)
    else if 'a' ≤ char && char ≤ 'z' then some (char.toNat - 'a'.toNat + 10)
    else if 'A' ≤ char && char ≤ 'Z' then some (char.toNat - 'A'.toNat + 10)
    else none
  value?.filter (· < base)

def natural? (base : Nat) : List Char → Option Nat
  | [] => none
  | digits => digits.foldlM (fun value char => do some (value * base + (← digitValue? base char))) 0

/-- A number without a sign, as digits and a power of ten to multiply them with. -/
structure Decimal where
  digits : List Char
  exponent : Int
deriving DecidableEq, Repr

namespace Decimal

/-- The least number that is too large to be rounded to a finite float. -/
def overflow : Nat := Nat.pow 2 1024 - Nat.pow 2 970

def significant (decimal : Decimal) : List Char := decimal.digits.dropWhile (· = '0')

/-- How many digits stand before the point; below zero, how many zeros follow it. -/
def places (decimal : Decimal) : Int := decimal.significant.length + decimal.exponent

/-- The number of digits alone settles all but the sizes close to the limit. -/
def isFinite (decimal : Decimal) : Bool :=
  if decimal.significant.isEmpty || decimal.places ≤ 308 then true
  else if decimal.places > 309 then false
  else
    let mantissa := (natural? 10 decimal.significant).getD 0
    mantissa * Nat.pow 10 decimal.exponent.toNat <
      overflow * Nat.pow 10 (-decimal.exponent).toNat

def zero : Decimal := ⟨[], 0⟩

def isZero (decimal : Decimal) : Bool :=
  decimal.significant.isEmpty || decimal.places < -323

def positional (decimal : Decimal) : List Char :=
  if decimal.isZero then ['0']
  else
    let digits := (decimal.significant.reverse.dropWhile (· = '0')).reverse
    let before := decimal.places.toNat
    if decimal.places ≤ 0 then
      '0' :: '.' :: List.replicate (-decimal.places).toNat '0' ++ digits
    else
      let whole := digits.take before ++ List.replicate (before - digits.length) '0'
      let fraction := digits.drop before
      if fraction.isEmpty then whole else whole ++ '.' :: fraction

end Decimal

end KernelMenu

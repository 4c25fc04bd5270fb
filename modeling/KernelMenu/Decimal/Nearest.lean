import KernelMenu.Decimal

/-!
The 64-bit float next to a decimal number, and the shortest decimal number that is read back as a
float. Both are exact: sizes are natural numbers of units, and a unit is the least float above
zero.
-/

namespace KernelMenu

/-- A float of at least zero: `mantissa` times two to the `power` units. -/
structure Binary where
  mantissa : Nat
  power : Nat
deriving DecidableEq, Repr

namespace Binary

/-- The least mantissa that uses all bits. Only floats without a power have smaller ones. -/
def fullMantissa : Nat := Nat.pow 2 52

/-- How many units are one. -/
def unitsOfOne : Nat := Nat.pow 2 1074

/-- The quotient as a natural number; a half goes to the even neighbour. -/
def divideRounded (dividend divisor : Nat) : Nat :=
  let quotient := dividend / divisor
  let twice := 2 * (dividend % divisor)
  if divisor < twice || (twice = divisor && quotient % 2 = 1) then quotient + 1 else quotient

def nearest (dividend divisor : Nat) : Binary :=
  let power := (dividend / divisor).log2 - 52
  let mantissa := divideRounded dividend (divisor * Nat.pow 2 power)
  if mantissa = 2 * fullMantissa then ⟨fullMantissa, power + 1⟩ else ⟨mantissa, power⟩

/-- The digits of a decimal number with a given exponent that is read back as the float. Of two
such numbers the nearer one counts, and of two equally near ones the larger. -/
def digitsAt? (float : Binary) (exponent : Int) : Option Nat :=
  let quarters (count : Nat) := count * Nat.pow 2 float.power * Nat.pow 10 (-exponent).toNat
  let step := 4 * unitsOfOne * Nat.pow 10 exponent.toNat
  let below := if float.mantissa = fullMantissa && 0 < float.power then 1 else 2
  let low := quarters (4 * float.mantissa - below)
  let value := quarters (4 * float.mantissa)
  let high := quarters (4 * float.mantissa + 2)
  let isBack (digits : Nat) : Bool :=
    let place := digits * step
    if float.mantissa % 2 = 0 then low ≤ place && place ≤ high else low < place && place < high
  let floor := value / step
  let isNearer := 2 * (value % step) < step
  if isBack floor && (isNearer || !isBack (floor + 1)) then some floor
  else if isBack (floor + 1) then some (floor + 1)
  else none

def shortest (float : Binary) (places : Int) : Decimal :=
  let found? := (List.range 18).findSome? fun (count : Nat) =>
    let exponent := places - count - 1
    (float.digitsAt? exponent).map fun digits => Decimal.mk (Nat.toDigits 10 digits) exponent
  found?.getD .zero

end Binary

def Decimal.kept (decimal : Decimal) : Decimal :=
  if decimal.isZero then zero
  else
    let mantissa := (natural? 10 decimal.significant).getD 0
    let float := Binary.nearest
      (mantissa * Nat.pow 10 decimal.exponent.toNat * Binary.unitsOfOne)
      (Nat.pow 10 (-decimal.exponent).toNat)
    if float.mantissa = 0 then zero else float.shortest decimal.places

end KernelMenu

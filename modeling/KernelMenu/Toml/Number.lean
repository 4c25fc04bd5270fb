import KernelMenu.Decimal.Nearest
import KernelMenu.Toml.Value

/-!
Numbers of settings files. Digits may have single underscores between them; integers have at most
64 bits.
-/

namespace KernelMenu.Toml

def isHexDigit (char : Char) : Bool := (digitValue? 16 char).isSome

def isOctalDigit (char : Char) : Bool := (digitValue? 8 char).isSome

def isBinaryDigit (char : Char) : Bool := (digitValue? 2 char).isSome

/-- Digits that follow another digit, each perhaps after an underscore. -/
def moreDigits (isDigit : Char → Bool) : List Char → List Char × List Char
  | '_' :: char :: rest =>
      if isDigit char then
        let (digits, after) := moreDigits isDigit rest
        (char :: digits, after)
      else ([], '_' :: char :: rest)
  | char :: rest =>
      if isDigit char then
        let (digits, after) := moreDigits isDigit rest
        (char :: digits, after)
      else ([], char :: rest)
  | [] => ([], [])

def readDigits (isDigit : Char → Bool) : Reader (List Char)
  | char :: rest =>
      if isDigit char then
        let (digits, after) := moreDigits isDigit rest
        some (char :: digits, after)
      else none
  | [] => none

/-- The digits of a whole number, which has no zeros in front. -/
def readWhole : Reader (List Char)
  | '0' :: rest => some (['0'], rest)
  | text => readDigits Char.isDigit text

def readSign : List Char → Bool × List Char
  | '-' :: rest => (true, rest)
  | '+' :: rest => (false, rest)
  | text => (false, text)

def boundedInt? (value : Int) : Option Value :=
  if fitsWord value then some (.int value) else none

/-- An integer in one of four bases; only the decimal ones have signs. -/
def readInt : Reader Value := fun text => do
  let based (base : Nat) (isDigit : Char → Bool) (text : List Char) :
      Option (Value × List Char) := do
    let (digits, rest) ← readDigits isDigit text
    some (← boundedInt? (← natural? base digits), rest)
  match text with
  | '0' :: 'x' :: rest => based 16 isHexDigit rest
  | '0' :: 'o' :: rest => based 8 isOctalDigit rest
  | '0' :: 'b' :: rest => based 2 isBinaryDigit rest
  | _ =>
      let (negative, rest) := readSign text
      let (digits, after) ← readWhole rest
      let size : Int := ← natural? 10 digits
      some (← boundedInt? (if negative then -size else size), after)

def floatValue (negative : Bool) (text : List Char) (isZero : Bool) : Value :=
  .float (String.ofList (if negative then '-' :: text else text)) isZero

def readExponent : Reader Int := fun text =>
  match text with
  | mark :: rest =>
      if mark = 'e' || mark = 'E' then do
        let (negative, rest) := readSign rest
        let (digits, after) ← readDigits Char.isDigit rest
        let size : Int := ← natural? 10 digits
        some (if negative then -size else size, after)
      else none
  | [] => none

/-- A float: a whole number with a fraction, an exponent or both, or one of two words. A number that
is too large for a float is refused, while one too far below zero counts as minus infinity. -/
def readFloat : Reader Value := fun text =>
  let (negative, rest) := readSign text
  match rest with
  | 'i' :: 'n' :: 'f' :: after => some (floatValue negative "inf".toList false, after)
  | 'n' :: 'a' :: 'n' :: after => some (.float "NaN" false, after)
  | _ => do
      let (whole, rest) ← readWhole rest
      let (fraction, rest) := match rest with
        | '.' :: tail => (readDigits Char.isDigit tail).getD ([], rest)
        | _ => ([], rest)
      let (exponent, after) ←
        if fraction.isEmpty then readExponent rest
        else some ((readExponent rest).getD (0, rest))
      let decimal : Decimal := ⟨whole ++ fraction, exponent - fraction.length⟩
      if decimal.isFinite then
        let kept := decimal.kept
        some (floatValue negative kept.positional kept.isZero, after)
      else if negative then some (floatValue negative "inf".toList false, after)
      else none

/-- A date or a number; what could be either is the longer one. -/
def readNumber : Reader Value := fun text =>
  match readDate Date.bareLimits text with
  | some (date, rest) => some (.date date, rest)
  | none =>
      match readFloat text with
      | some read => some read
      | none => readInt text

end KernelMenu.Toml

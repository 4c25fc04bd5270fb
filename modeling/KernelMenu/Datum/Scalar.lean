import KernelMenu.Decimal

/-!
Texts that a block document would not read back as texts: those that look empty, or like a truth
value or a number. A document has to quote them.
-/

namespace KernelMenu.Datum.Scalar

def nullWords : List String := ["null", "Null", "NULL", "~"]

def truthWords : List String := ["true", "True", "TRUE", "false", "False", "FALSE"]

def infinityWords : List String := [".inf", ".Inf", ".INF"]

def notANumberWords : List String := [".nan", ".NaN", ".NAN"]

def isSign (char : Char) : Bool := char = '+' || char = '-'

def unsigned : List Char → List Char
  | char :: rest => if isSign char then rest else char :: rest
  | [] => []

def based : List Char → Nat × List Char
  | '0' :: 'x' :: digits => (16, digits)
  | '0' :: 'o' :: digits => (8, digits)
  | '0' :: 'b' :: digits => (2, digits)
  | digits => (10, digits)

/-- Integers of at most 128 bits, below zero with a sign bit. -/
def isInteger (text : List Char) : Bool :=
  let limit := if text.head? = some '-' then Nat.pow 2 127 + 1 else Nat.pow 2 128
  let (base, digits) := based (unsigned text)
  (natural? base digits).any (· < limit)

/-- Digits after a leading zero are no number, but close enough to be quoted. -/
def isPaddedDigits (text : List Char) : Bool :=
  match unsigned text with
  | '0' :: digit :: digits => (digit :: digits).all Char.isDigit
  | _ => false

/-- An exponent mark with its number; nothing at all is the exponent zero. -/
def exponent? : List Char → Option Int
  | [] => some 0
  | mark :: rest =>
      if mark = 'e' || mark = 'E' then do
        let size ← natural? 10 (unsigned rest)
        some (if rest.head? = some '-' then -(size : Int) else size)
      else none

def decimal? (text : List Char) : Option Decimal := do
  let whole := text.takeWhile Char.isDigit
  let (fraction, rest) := match text.dropWhile Char.isDigit with
    | '.' :: rest => (rest.takeWhile Char.isDigit, rest.dropWhile Char.isDigit)
    | rest => ([], rest)
  let exponent ← exponent? rest
  if (whole ++ fraction).isEmpty then none
  else some ⟨whole ++ fraction, exponent - fraction.length⟩

def isFloat (text : List Char) : Bool :=
  infinityWords.contains (String.ofList (unsigned text)) ||
    notANumberWords.contains (String.ofList text) ||
    (decimal? (unsigned text)).any Decimal.isFinite

def looksOther (text : String) : Bool :=
  text.isEmpty || nullWords.contains text || truthWords.contains text ||
    isInteger text.toList || isPaddedDigits text.toList || isFloat text.toList

end KernelMenu.Datum.Scalar

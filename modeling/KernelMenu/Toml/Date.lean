import KernelMenu.Decimal

/-!
Dates of settings files: a day, a time of day, or both, and then perhaps the distance from the
common time. A date is read in several spellings and printed in one.
-/

namespace KernelMenu.Toml

/-- A reader takes the front of a text and gives a value with the rest, or refuses. -/
abbrev Reader (Value : Type) := List Char → Option (Value × List Char)

structure Day where
  year : Nat
  month : Nat
  day : Nat
deriving DecidableEq, Repr

/-- The digits of the fraction of a second are at most nine, and none of them is a zero at the
end. -/
structure Time where
  hour : Nat
  minute : Nat
  second : Nat
  fraction : List Char
deriving DecidableEq, Repr

/-- The distance from the common time, in minutes unless it is named to be none. -/
inductive Offset where
  | common
  | minutes (count : Int)
deriving DecidableEq, Repr

inductive Date where
  | day (date : Day)
  | time (clock : Time)
  | moment (date : Day) (clock : Time) (offset : Option Offset)
deriving DecidableEq, Repr

def padded (width number : Nat) : List Char :=
  let digits := Nat.toDigits 10 number
  List.replicate (width - digits.length) '0' ++ digits

def Day.text (day : Day) : List Char :=
  padded 4 day.year ++ '-' :: padded 2 day.month ++ '-' :: padded 2 day.day

def Time.text (time : Time) : List Char :=
  padded 2 time.hour ++ ':' :: padded 2 time.minute ++ ':' :: padded 2 time.second ++
    if time.fraction.isEmpty then [] else '.' :: time.fraction

def Offset.text : Offset → List Char
  | common => ['Z']
  | minutes count =>
      (if count < 0 then '-' else '+') :: padded 2 (count.natAbs / 60) ++
        ':' :: padded 2 (count.natAbs % 60)

def Date.text : Date → String
  | day date => String.ofList date.text
  | time clock => String.ofList clock.text
  | moment date clock offset =>
      String.ofList (date.text ++ 'T' :: clock.text ++ (offset.map Offset.text).getD [])

structure DateLimits where
  hour : Nat
  offsetHour : Nat
  offsetMinute : Nat
deriving DecidableEq, Repr

def readField (width low high : Nat) : Reader Nat := fun text => do
  let digits := text.take width
  if digits.length = width && digits.all Char.isDigit then
    let value ← natural? 10 digits
    if low ≤ value && value ≤ high then some (value, text.drop width) else none
  else none

def readSeparator (sign : Char) : List Char → Option (List Char)
  | char :: rest => if char = sign then some rest else none
  | [] => none

def daysIn (year month : Nat) : Nat :=
  if month = 2 then
    if (year % 4 = 0 && year % 100 ≠ 0) || year % 400 = 0 then 29 else 28
  else if month = 4 || month = 6 || month = 9 || month = 11 then 30
  else 31

def readDay : Reader Day := fun text => do
  let (year, rest) ← readField 4 0 9999 text
  let rest ← readSeparator '-' rest
  let (month, rest) ← readField 2 1 12 rest
  let rest ← readSeparator '-' rest
  let (day, rest) ← readField 2 1 (daysIn year month) rest
  some (⟨year, month, day⟩, rest)

/-- A fraction of a second counts to nine digits, without zeros at its end. -/
def readFraction : List Char → List Char × List Char
  | '.' :: rest =>
      let digits := rest.takeWhile Char.isDigit
      if digits.isEmpty then ([], '.' :: rest)
      else (((digits.take 9).reverse.dropWhile (· = '0')).reverse, rest.dropWhile Char.isDigit)
  | text => ([], text)

def readTime (limits : DateLimits) : Reader Time := fun text => do
  let (hour, rest) ← readField 2 0 limits.hour text
  let rest ← readSeparator ':' rest
  let (minute, rest) ← readField 2 0 59 rest
  let rest ← readSeparator ':' rest
  let (second, rest) ← readField 2 0 60 rest
  let (fraction, rest) := readFraction rest
  some (⟨hour, minute, second, fraction⟩, rest)

def readOffset (limits : DateLimits) : Reader Offset
  | [] => none
  | sign :: rest =>
      if sign = 'Z' || sign = 'z' then some (.common, rest)
      else if sign = '+' || sign = '-' then do
        let (hour, rest) ← readField 2 0 limits.offsetHour rest
        let rest ← readSeparator ':' rest
        let (minute, rest) ← readField 2 0 limits.offsetMinute rest
        let count : Int := hour * 60 + minute
        if count ≤ 24 * 60 then some (.minutes (if sign = '-' then -count else count), rest)
        else none
      else none

def readDate (limits : DateLimits) : Reader Date := fun text =>
  match readDay text with
  | none => (readTime limits text).map fun (time, rest) => (.time time, rest)
  | some (day, rest) =>
      let moment? := match rest with
        | mark :: tail =>
            if mark = 'T' || mark = 't' || mark = ' ' then readTime limits tail else none
        | [] => none
      match moment? with
      | none => some (.day day, rest)
      | some (time, rest) =>
          match readOffset limits rest with
          | some (offset, rest) => some (.moment day time (some offset), rest)
          | none => some (.moment day time none, rest)

namespace Date

def bareLimits : DateLimits := ⟨23, 23, 59⟩

/-- Of a date in quotes: the day may end with its 24th hour, and offsets are not split strictly. -/
def quotedLimits : DateLimits := ⟨24, 99, 99⟩

/-- The date that a whole text spells. -/
def ofText? (text : String) : Option Date :=
  match readDate quotedLimits text.toList with
  | some (date, []) => some date
  | _ => none

end Date

end KernelMenu.Toml

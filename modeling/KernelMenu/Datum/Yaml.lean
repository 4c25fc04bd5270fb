import KernelMenu.Datum.Scalar
import KernelMenu.Datum

/-!
Data as a block document: a field on each line, records indented by two, lists not indented under
their field. A text is written in the first of four styles that suits it: plain, in single quotes,
in double quotes, or as a literal block.
-/

namespace KernelMenu.Datum.Yaml

inductive Style where
  | plain | single | double | literal
deriving DecidableEq, Repr

def isBreak (char : Char) : Bool :=
  char = '\n' || char = '\r' || char = '\u0085' || char = '\u2028' || char = '\u2029'

def isBlank (char : Char) : Bool := char = ' ' || char = '\t'

def isPrintable (char : Char) : Bool :=
  char = '\n' || (' ' ≤ char && char ≤ '~') || ('\u00a0' ≤ char && char ≤ '\ufffd' &&
    char ≠ '\ufeff') || 0x10000 ≤ char.toNat

def isBlankOrBreak (char : Char) : Bool := isBlank char || isBreak char

/-- Signs that a plain text cannot start with. -/
def openers : List Char :=
  ['#', ',', '[', ']', '\x7b', '\x7d', '&', '*', '!', '|', '>', '\'', '"', '%', '@', '\x60']

/-- True of a sign before a blank, a break or the end. -/
def standsAlone : List Char → Bool
  | [] => true
  | char :: _ => isBlankOrBreak char

/-- A colon that ends a word, or a sharp that begins one. -/
def hasInnerSign : Char → List Char → Bool
  | _, [] => false
  | previous, char :: rest =>
      (char = ':' && standsAlone rest) || (char = '#' && isBlankOrBreak previous) ||
        hasInnerSign char rest

def startsBadly : List Char → Bool
  | [] => false
  | char :: rest =>
      openers.contains char || ((char = '?' || char = ':' || char = '-') && standsAlone rest)

def startsLikeMarker (text : List Char) : Bool :=
  text.take 3 = ['-', '-', '-'] || text.take 3 = ['.', '.', '.']

def hasPair (first second : Char → Bool) : List Char → Bool
  | left :: right :: rest => (first left && second right) || hasPair first second (right :: rest)
  | _ => false

def hasSpaceBeforeBreak : List Char → Bool := hasPair (· = ' ') isBreak

def hasSpaceAfterBreak : List Char → Bool := hasPair isBreak (· = ' ')

def allowsPlain (text : List Char) : Bool :=
  !startsLikeMarker text && !startsBadly text &&
    !(match text with
      | [] => false
      | char :: rest => hasInnerSign char rest) &&
    text.head? ≠ some ' ' && text.getLast? ≠ some ' ' && !text.any isBreak && text.all isPrintable

def allowsSingle (text : List Char) : Bool :=
  !hasSpaceBeforeBreak text && !hasSpaceAfterBreak text && text.all isPrintable

def allowsLiteral (text : List Char) : Bool :=
  text.getLast? ≠ some ' ' && !hasSpaceBeforeBreak text && text.all isPrintable

/-- Texts with line feeds are best as literal blocks, and those that look like other data in
quotes. -/
def style (text : String) : Style :=
  let chars := text.toList
  if chars.contains '\n' then
    if allowsLiteral chars then .literal else .double
  else if !Scalar.looksOther text && allowsPlain chars then .plain
  else if allowsSingle chars then .single
  else .double

def hexDigit (digit : Nat) : Char := "0123456789ABCDEF".toList.getD digit '0'

def hexDigits (width value : Nat) : List Char :=
  (List.range width).reverse.map fun place => hexDigit (value / Nat.pow 16 place % 16)

def escapeChar (char : Char) : List Char :=
  let short? := [('\x00', '0'), ('\x07', 'a'), ('\x08', 'b'), ('\t', 't'), ('\n', 'n'),
    ('\x0b', 'v'), ('\x0c', 'f'), ('\r', 'r'), ('\x1b', 'e'), ('"', '"'), ('\\', '\\'),
    ('\u0085', 'N'), ('\u2028', 'L'), ('\u2029', 'P')].lookup char
  match short? with
  | some sign => ['\\', sign]
  | none =>
      if isPrintable char then [char]
      else if char.toNat < 0x100 then '\\' :: 'x' :: hexDigits 2 char.toNat
      else if char.toNat < 0x10000 then '\\' :: 'u' :: hexDigits 4 char.toNat
      else '\\' :: 'U' :: hexDigits 8 char.toNat

def writeDouble (text : List Char) : List Char := '"' :: text.flatMap escapeChar ++ ['"']

/-- The inside of single quotes: a quote is doubled, and what follows a break is indented. -/
def writeSingleFrom (margin : List Char) : Bool → List Char → List Char
  | atStart, [] => if atStart then margin else []
  | atStart, char :: rest =>
      if isBreak char then char :: writeSingleFrom margin true rest
      else if char = ' ' then ' ' :: writeSingleFrom margin atStart rest
      else
        (if atStart then margin else []) ++ (if char = '\'' then ['\'', '\''] else [char]) ++
          writeSingleFrom margin false rest

def writeSingle (margin text : List Char) : List Char :=
  '\'' :: writeSingleFrom margin false text ++ ['\'']

def writeLines (margin : List Char) : Bool → List Char → List Char
  | _, [] => []
  | atStart, char :: rest =>
      if isBreak char then char :: writeLines margin true rest
      else (if atStart then margin else []) ++ char :: writeLines margin false rest

def startsWithBlank (text : List Char) : Bool :=
  match text with
  | char :: _ => char = ' ' || isBreak char
  | [] => false

/-- What the head of a literal block says of the breaks at the end of its text. -/
def endingMark (text : List Char) : List Char :=
  match text.reverse with
  | [] => ['-']
  | last :: rest =>
      if !isBreak last then ['-']
      else match rest with
        | [] => ['+']
        | before :: _ => if isBreak before then ['+'] else []

def endsWithBreak (text : List Char) : Bool := text.getLast?.any isBreak

/-- A literal block, up to the end of its last line. -/
def writeLiteral (margin text : List Char) : List Char :=
  '|' :: (if startsWithBlank text then ['2'] else []) ++ endingMark text ++ '\n' ::
    writeLines margin true text ++ if endsWithBreak text then [] else ['\n']

/-- A text with the end of its line; `column` is where its field starts. -/
def writeText (column : Nat) (text : String) : String :=
  let margin := List.replicate (column + 2) ' '
  String.ofList (match style text with
    | .plain => text.toList ++ ['\n']
    | .single => writeSingle margin text.toList ++ ['\n']
    | .double => writeDouble text.toList ++ ['\n']
    | .literal => writeLiteral margin text.toList)

def indent (column : Nat) : String := String.ofList (List.replicate column ' ')

mutual

def writeValue (column : Nat) : Datum → String
  | .null => " null\n"
  | .flag value => if value then " true\n" else " false\n"
  | .text value => " " ++ writeText column value
  | .list [] => " []\n"
  | .list (item :: items) => "\n" ++ writeItems column (item :: items)
  | .record [] => " \x7b\x7d\n"
  | .record (field :: fields) =>
      "\n" ++ indent (column + 2) ++ writeFields (column + 2) (field :: fields)

def writeItems (column : Nat) : List Datum → String
  | [] => ""
  | item :: items => indent column ++ "-" ++ writeItem column item ++ writeItems column items

/-- What follows the dash of an item: records and lists start on the same line. -/
def writeItem (column : Nat) : Datum → String
  | .record (field :: fields) => " " ++ writeFields (column + 2) (field :: fields)
  | .list (item :: items) =>
      " -" ++ writeItem (column + 2) item ++ writeItems (column + 2) items
  | .record [] => " \x7b\x7d\n"
  | .list [] => " []\n"
  | .null => " null\n"
  | .flag value => if value then " true\n" else " false\n"
  | .text value => " " ++ writeText column value

def writeFields (column : Nat) : List (String × Datum) → String
  | [] => ""
  | [(name, value)] => name ++ ":" ++ writeValue column value
  | (name, value) :: field :: fields =>
      name ++ ":" ++ writeValue column value ++ indent column ++
        writeFields column (field :: fields)

end

end KernelMenu.Datum.Yaml

namespace KernelMenu.Datum

def toYaml : Datum → String
  | .record (field :: fields) => Yaml.writeFields 0 (field :: fields)
  | .list (item :: items) => Yaml.writeItems 0 (item :: items)
  | other => String.ofList ((Yaml.writeValue 0 other).toList.drop 1)

end KernelMenu.Datum

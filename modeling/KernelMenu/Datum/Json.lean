import KernelMenu.Datum

/-!
Data as JSON. A layout says what stands at the start of each line and after each colon; the spread
layout puts every item on a line of its own, the dense layout has no blanks at all.
-/

namespace KernelMenu.Datum.Json

def hexDigit (digit : Nat) : Char := "0123456789abcdef".toList.getD digit '0'

/-- Only quotes, backslashes and control characters are escaped; the commonest controls have
short escapes. -/
def escapeChar (char : Char) : List Char :=
  if char = '"' then ['\\', '"']
  else if char = '\\' then ['\\', '\\']
  else if char = '\n' then ['\\', 'n']
  else if char = '\r' then ['\\', 'r']
  else if char = '\t' then ['\\', 't']
  else if char = '\x08' then ['\\', 'b']
  else if char = '\x0c' then ['\\', 'f']
  else if char < ' ' then
    ['\\', 'u', '0', '0', hexDigit (char.toNat / 16), hexDigit (char.toNat % 16)]
  else [char]

def quote (text : String) : String :=
  "\"" ++ String.ofList (text.toList.flatMap escapeChar) ++ "\""

structure Layout where
  newLine : Nat → String
  afterColon : String

namespace Layout

def spread : Layout where
  newLine depth := "\n" ++ String.ofList (List.replicate (2 * depth) ' ')
  afterColon := " "

def dense : Layout where
  newLine _ := ""
  afterColon := ""

end Layout

/-- Items between an opening and a closing sign, each on a new line; nothing stands between the
signs if there are no items. -/
def enclose (layout : Layout) (depth : Nat) (opening closing : String) : List String → String
  | [] => opening ++ closing
  | items =>
      opening ++ layout.newLine (depth + 1) ++
        ("," ++ layout.newLine (depth + 1)).intercalate items ++
        layout.newLine depth ++ closing

mutual

def write (layout : Layout) (depth : Nat) : Datum → String
  | .null => "null"
  | .flag value => if value then "true" else "false"
  | .text value => quote value
  | .list items => enclose layout depth "[" "]" (writeItems layout (depth + 1) items)
  | .record fields =>
      enclose layout depth "\x7b" "\x7d" (writeFields layout (depth + 1) fields)

def writeItems (layout : Layout) (depth : Nat) : List Datum → List String
  | [] => []
  | item :: items => write layout depth item :: writeItems layout depth items

def writeFields (layout : Layout) (depth : Nat) : List (String × Datum) → List String
  | [] => []
  | (name, value) :: fields =>
      (quote name ++ ":" ++ layout.afterColon ++ write layout depth value) ::
        writeFields layout depth fields

end

end KernelMenu.Datum.Json

namespace KernelMenu.Datum

def toJson (layout : Json.Layout) (datum : Datum) : String := Json.write layout 0 datum

end KernelMenu.Datum

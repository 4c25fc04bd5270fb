import KernelMenu.Toml.Date

/-!
Blanks, comments, quoted texts and keys of settings files.
-/

namespace KernelMenu.Toml

def isSpace (char : Char) : Bool := char = ' ' || char = '\t'

def skipSpaces (text : List Char) : List Char := text.dropWhile isSpace

def lineEnd? : List Char → Option (List Char)
  | '\n' :: rest => some rest
  | '\r' :: '\n' :: rest => some rest
  | _ => none

/-- Characters of comments and of quoted texts: all but the control characters, and the tab. -/
def isPlainChar (char : Char) : Bool := char = '\t' || (' ' ≤ char && char ≠ '\x7f')

def skipComment : List Char → List Char
  | '#' :: rest => rest.dropWhile isPlainChar
  | text => text

/-- What follows the end of a line, past spaces and a comment; the end of the text is one. -/
def endOfLine? (text : List Char) : Option (List Char) :=
  match skipComment (skipSpaces text) with
  | [] => some []
  | rest => lineEnd? rest

def hexNumber? (digits : List Char) : Option Nat :=
  digits.foldlM (fun number digit =>
    if digit.isDigit then some (number * 16 + (digit.toNat - '0'.toNat))
    else if 'a' ≤ digit && digit ≤ 'f' then some (number * 16 + (digit.toNat - 'a'.toNat + 10))
    else if 'A' ≤ digit && digit ≤ 'F' then some (number * 16 + (digit.toNat - 'A'.toNat + 10))
    else none) 0

def codePoint? (digits : List Char) : Option Char := do
  let number ← hexNumber? digits
  if number.isValidChar then some (Char.ofNat number) else none

def readEscape : Reader Char
  | 'b' :: rest => some ('\x08', rest)
  | 't' :: rest => some ('\t', rest)
  | 'n' :: rest => some ('\n', rest)
  | 'f' :: rest => some ('\x0c', rest)
  | 'r' :: rest => some ('\r', rest)
  | '"' :: rest => some ('"', rest)
  | '\\' :: rest => some ('\\', rest)
  | 'u' :: a :: b :: c :: d :: rest => (codePoint? [a, b, c, d]).map (·, rest)
  | 'U' :: a :: b :: c :: d :: e :: f :: g :: h :: rest =>
      (codePoint? [a, b, c, d, e, f, g, h]).map (·, rest)
  | _ => none

def skipBlankLines : List Char → List Char
  | ' ' :: rest => skipBlankLines rest
  | '\t' :: rest => skipBlankLines rest
  | '\n' :: rest => skipBlankLines rest
  | '\r' :: '\n' :: rest => skipBlankLines rest
  | text => text

/-- A backslash at the end of a line leaves out all blanks up to the next text. -/
def skipFold? (text : List Char) : Option (List Char) :=
  (lineEnd? (skipSpaces text)).map skipBlankLines

structure Quoting where
  quote : Char
  escapes : Bool
  manyLines : Bool
deriving DecidableEq, Repr

/-- Three quotes end a text of many lines; up to two more before them belong to it. -/
def closeMany? (quote : Char) (text : List Char) : Option (List Char × List Char) :=
  let run := text.takeWhile (· = quote)
  if run.length < 3 then none
  else
    let count := min run.length 5
    some (List.replicate (count - 3) quote, text.drop count)

inductive Turn where
  | close (last rest : List Char)
  | take (chars rest : List Char)
  | refuse

def Quoting.turn (quoting : Quoting) : List Char → Turn
  | [] => .refuse
  | char :: rest =>
      if char = quoting.quote then
        if !quoting.manyLines then .close [] rest
        else match closeMany? quoting.quote (char :: rest) with
          | some (last, after) => .close last after
          | none => .take [char] rest
      else if char = '\\' && quoting.escapes then
        match readEscape rest with
        | some (escaped, after) => .take [escaped] after
        | none =>
            match quoting.manyLines, skipFold? rest with
            | true, some after => .take [] after
            | _, _ => .refuse
      else if isPlainChar char then .take [char] rest
      else match quoting.manyLines, lineEnd? (char :: rest) with
        | true, some after => .take ['\n'] after
        | _, _ => .refuse

def Quoting.body (quoting : Quoting) (text : List Char) : Option (List Char × List Char) :=
  match quoting.turn text with
  | .refuse => none
  | .close last rest => some (last, rest)
  | .take chars rest =>
      if _ : rest.length < text.length then
        (quoting.body rest).map fun (inner, after) => (chars ++ inner, after)
      else none
termination_by text.length

/-- A text in quotes; a line end right after three quotes does not count. -/
def readQuoted (manyLines : Bool) : Reader String := fun text =>
  let open? : Option (Quoting × List Char) := match text with
    | '"' :: '"' :: '"' :: rest => some (⟨'"', true, true⟩, rest)
    | '\'' :: '\'' :: '\'' :: rest => some (⟨'\'', false, true⟩, rest)
    | '"' :: rest => some (⟨'"', true, false⟩, rest)
    | '\'' :: rest => some (⟨'\'', false, false⟩, rest)
    | _ => none
  match open? with
  | none => none
  | some (quoting, rest) =>
      if quoting.manyLines && !manyLines then none
      else
        let rest := if quoting.manyLines then (lineEnd? rest).getD rest else rest
        (quoting.body rest).map fun (chars, after) => (String.ofList chars, after)

def isBareChar (char : Char) : Bool := char.isAlphanum || char = '_' || char = '-'

def readKeyPart : Reader String := fun text =>
  let bare := text.takeWhile isBareChar
  if bare.isEmpty then
    match text with
    | '"' :: '"' :: rest => some ("", rest)
    | '\'' :: '\'' :: rest => some ("", rest)
    | _ => readQuoted false text
  else some (String.ofList bare, text.dropWhile isBareChar)

def readKeyParts (text : List Char) : Option (List String × List Char) :=
  match readKeyPart (skipSpaces text) with
  | none => none
  | some (part, rest) =>
      match skipSpaces rest with
      | '.' :: after =>
          if _ : after.length < text.length then
            (readKeyParts after).map fun (parts, rest) => (part :: parts, rest)
          else none
      | rest => some ([part], rest)
termination_by text.length

/-- Keys have fewer parts than this, and lists and tables nest less deep. -/
def depthLimit : Nat := 80

def readKey : Reader (List String) := fun text => do
  let (parts, rest) ← readKeyParts text
  if parts.length < depthLimit then some (parts, rest) else none

end KernelMenu.Toml

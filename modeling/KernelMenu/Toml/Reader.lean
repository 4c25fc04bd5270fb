import KernelMenu.Toml.Number
import KernelMenu.Toml.Table
import KernelMenu.Toml.Text

/-!
Reading a settings file: lines that give keys their values or open tables, where a value may be a
list or a table that is written in place.
-/

namespace KernelMenu.Toml

/-- Items up to a closing sign, with commas between them. `gap` skips what may stand around an
item, and a comma after the last item is allowed if `trailing` says so. -/
def readItems {Item : Type} (gap : List Char → List Char) (trailing : Bool) (closing : Char)
    (item : Reader Item) (text : List Char) : Option (List Item × List Char) :=
  match item (gap text) with
  | none => none
  | some (value, rest) =>
      match gap rest with
      | [] => none
      | sign :: after =>
          if sign = closing then some ([value], after)
          else if sign = ',' then
            match trailing, gap after with
            | true, next :: rest =>
                if next = closing then some ([value], rest)
                else if _ : after.length < text.length then
                  (readItems gap trailing closing item after).map fun (values, rest) =>
                    (value :: values, rest)
                else none
            | _, _ =>
                if _ : after.length < text.length then
                  (readItems gap trailing closing item after).map fun (values, rest) =>
                    (value :: values, rest)
                else none
          else none
termination_by text.length

def readEnclosed {Item : Type} (gap : List Char → List Char) (trailing : Bool) (closing : Char)
    (item : Reader Item) : Reader (List Item) := fun text =>
  match gap text with
  | [] => none
  | sign :: rest =>
      if sign = closing then some ([], rest) else readItems gap trailing closing item text

def skipLines (text : List Char) : List Char :=
  match skipComment (skipSpaces text) with
  | [] => []
  | rest =>
      match lineEnd? rest with
      | none => rest
      | some after => if _ : after.length < text.length then skipLines after else after
termination_by text.length

def readPair (value : Reader Value) : Reader (List String × Value) := fun text => do
  let (key, rest) ← readKey text
  match rest with
  | '=' :: rest =>
      let (value, rest) ← value (skipSpaces rest)
      some ((key, value), rest)
  | _ => none

def readScalar : Reader Value := fun text =>
  match text with
  | '"' :: _ | '\'' :: _ =>
      (readQuoted true text).map fun (value, rest) => (.text value, rest)
  | 't' :: 'r' :: 'u' :: 'e' :: rest => some (.flag true, rest)
  | 'f' :: 'a' :: 'l' :: 's' :: 'e' :: rest => some (.flag false, rest)
  | _ => readNumber text

/-- A value in which lists and tables nest at most `depth` deep. -/
def readValue : Nat → Reader Value
  | 0, text => readScalar text
  | depth + 1, text =>
      match text with
      | '[' :: rest =>
          (readEnclosed skipLines true ']' (readValue depth) rest).map fun (items, rest) =>
            (.list items, rest)
      | '\x7b' :: rest => do
          let (pairs, rest) ←
            readEnclosed skipSpaces false '\x7d' (readPair (readValue depth)) rest
          some (← collectInline pairs, rest)
      | _ => readScalar text

def readStatement : Reader Statement := fun text =>
  match text with
  | '[' :: '[' :: rest =>
      match readKey rest with
      | some (key, ']' :: ']' :: rest) => some (.openItem key, rest)
      | _ => none
  | '[' :: rest =>
      match readKey rest with
      | some (key, ']' :: rest) => some (.openTable key, rest)
      | _ => none
  | _ => (readPair (readValue (depthLimit - 1)) text).map fun ((key, value), rest) =>
      (.assign key value, rest)

/-- All statements of a text. Each ends with its line. -/
def readStatements (text : List Char) : Option (List Statement) :=
  match skipLines text with
  | [] => some []
  | start =>
      match readStatement start with
      | none => none
      | some (statement, rest) =>
          match endOfLine? rest with
          | none => none
          | some after =>
              if _ : after.length < text.length then
                (readStatements after).map (statement :: ·)
              else none
termination_by text.length

def skipMark : List Char → List Char
  | '\ufeff' :: rest => rest
  | text => text

/-- The table that a settings file describes, unless it breaks a rule. Up to two marks of the byte
order in front of it do not count: one belongs to the file, one to the text in it. -/
def read (text : String) : Option (List (String × Setting)) := do
  let chars := skipMark (skipMark text.toList)
  match ← (← collect (← readStatements chars)).setting? with
  | .table entries => some entries
  | _ => none

end KernelMenu.Toml

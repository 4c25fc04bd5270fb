/-!
Settings as files and command lines give them: values of a few kinds in tables of tables. A key
names a place in such a tree; `Setting.put` gives a place a value, whatever stood on the way
to it.
-/

namespace KernelMenu

/-- An `absent` value fills the gaps of a list. A float is kept as the text it is printed as. -/
inductive Setting where
  | absent
  | flag (value : Bool)
  | int (value : Int)
  | float (text : String) (isZero : Bool)
  | text (value : String)
  | list (items : List Setting)
  | table (entries : List (String × Setting))
deriving Repr, Inhabited

def fitsWord (value : Int) : Bool :=
  let limit := Nat.pow 2 63
  if value < 0 then value.natAbs ≤ limit else value.natAbs < limit

inductive KeyStep where
  | name (name : String)
  | index (index : Int)
deriving DecidableEq, Repr

abbrev Key := List KeyStep

namespace Key

def isNameChar (char : Char) : Bool :=
  char.isAlphanum || char = ' ' || char = '_' || char = '-'

def readName (text : List Char) : Option (KeyStep × List Char) :=
  let name := text.takeWhile isNameChar
  if name.isEmpty then none
  else some (.name (String.ofList name).toLower, text.dropWhile isNameChar)

def isBlank (char : Char) : Bool := char = ' ' || char = '\t'

def readIndex (text : List Char) : Option (KeyStep × List Char) :=
  let text := text.dropWhile isBlank
  let (negative, text) := match text with
    | '-' :: rest => (true, rest)
    | rest => (false, rest)
  let digits := text.takeWhile Char.isDigit
  match digits.isEmpty, (text.dropWhile Char.isDigit).dropWhile isBlank with
  | false, ']' :: rest =>
      let size : Int := digits.foldl (fun size digit => size * 10 + (digit.toNat - '0'.toNat)) 0
      let index := if negative then -size else size
      if fitsWord index then some (.index index, rest) else none
  | _, _ => none

def readSteps : List Char → Option Key
  | [] => some []
  | sign :: rest =>
      let step? :=
        if sign = '.' then readName rest
        else if sign = '[' then readIndex rest
        else none
      match step? with
      | none => none
      | some (step, after) =>
          if _ : after.length ≤ rest.length then (readSteps after).map (step :: ·) else none
termination_by text => text.length

def ofText? (text : String) : Option Key := do
  let (first, rest) ← readName text.toList
  some (first :: (← readSteps rest))

end Key

namespace Setting

def entries : Setting → List (String × Setting)
  | table entries => entries
  | _ => []

def items : Setting → List Setting
  | list items => items
  | _ => []

def get? (name : String) (setting : Setting) : Option Setting := setting.entries.lookup name

def insert (name : String) (value : Setting) : List (String × Setting) → List (String × Setting)
  | [] => [(name, value)]
  | (other, old) :: entries =>
      if other = name then (name, value) :: entries else (other, old) :: insert name value entries

mutual

/-- Gives an entry of a setting a value. A table is merged into what stands there, entry by entry;
anything else replaces it. A setting that is no table becomes one. -/
def assign (name : String) : Setting → Setting → Setting
  | table incoming, target =>
      let old := (target.get? name.toLower).getD (table [])
      table (insert name.toLower (assignAll incoming old) target.entries)
  | value, target => table (insert name.toLower value target.entries)

def assignAll : List (String × Setting) → Setting → Setting
  | [], target => target
  | (name, value) :: entries, target => assignAll entries (assign name value target)

end

/-- The place of an index in a list of a given length; below zero it counts from the end. -/
def position (length : Nat) (index : Int) : Nat :=
  if index < 0 then (length + index).toNat else index.toNat

/-- The list with one item changed, filled up as far as the item needs. -/
def setItem (index : Int) (change : Setting → Setting) (items : List Setting) : List Setting :=
  let place := position items.length index
  let items := items ++ List.replicate (place + 1 - items.length) absent
  items.modify place change

/-- Gives the place of a key a value. What is not of the kind that a step needs is replaced. -/
def put (value : Setting) : Key → Setting → Setting
  | [], _ => value
  | [.name name], target => assign name value target
  | .name name :: steps, target =>
      table (insert name (put value steps ((target.get? name).getD absent)) target.entries)
  | .index index :: steps, target => list (setItem index (put value steps) target.items)

end Setting

end KernelMenu

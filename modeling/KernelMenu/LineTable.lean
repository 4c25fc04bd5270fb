import KernelMenu.Position

/-!
The offsets at which the lines of a source start, in order, and the position of an offset by search
among them. A step that would look outside of the table or the source has no result.
-/

namespace KernelMenu

/-- Where a search among sorted numbers ends: at the number, or where it would have to be put. -/
inductive Slot where
  | taken (index : Nat)
  | free (index : Nat)
deriving DecidableEq, Repr

/-- Halves what lies from index `low` on and in front of index `high` until the number is found. -/
def Slot.search (numbers : Array Nat) (sought low high : Nat) : Option Slot :=
  if low < high then
    let middle := low + (high - low) / 2
    match numbers[middle]? with
    | none => none
    | some number =>
        if number = sought then some (.taken middle)
        else if number < sought then search numbers sought (middle + 1) high
        else search numbers sought low middle
  else some (.free low)
termination_by high - low

structure LineTable where
  source : String
  starts : Array Nat
deriving DecidableEq, Repr

namespace LineTable

/-- The offsets behind the line feeds of a text that starts at an offset. -/
def startsFrom (offset : Nat) : List Char → List Nat
  | [] => []
  | char :: rest =>
      let others := startsFrom (offset + char.utf8Size) rest
      if char = '\n' then (offset + 1) :: others else others

def ofSource (source : String) : LineTable :=
  ⟨source, (0 :: startsFrom 0 source.toList).toArray⟩

/-- The line that starts at the offset, or else the one in front of the first that starts later. -/
def line? (table : LineTable) (offset : Nat) : Option Nat :=
  match Slot.search table.starts offset 0 table.starts.size with
  | none => none
  | some (.taken index) => some index
  | some (.free 0) => none
  | some (.free (index + 1)) => some index

/-- A text cut behind a number of bytes, if they end between two characters. -/
def cut? : Nat → List Char → Option (List Char × List Char)
  | 0, text => some ([], text)
  | _ + 1, [] => none
  | bytes + 1, char :: rest =>
      if char.utf8Size ≤ bytes + 1 then
        (cut? (bytes + 1 - char.utf8Size) rest).map fun parts => (char :: parts.1, parts.2)
      else none

def between? (start stop : Nat) (text : List Char) : Option (List Char) :=
  if start ≤ stop then do
    let (_, rest) ← cut? start text
    let (inside, _) ← cut? (stop - start) rest
    some inside
  else none

/-- Characters are counted if they can be cut out, and bytes otherwise. -/
def column? (table : LineTable) (start offset : Nat) : Option Nat :=
  match between? start offset table.source.toList with
  | some text => some text.length
  | none => if start ≤ offset then some (offset - start) else none

/-- An offset past the end means the end. -/
def position? (table : LineTable) (offset : Nat) : Option Position := do
  let clamped := min offset table.source.utf8ByteSize
  let line ← table.line? clamped
  let start ← table.starts[line]?
  let column ← table.column? start clamped
  some ⟨clamped, line, column⟩

end LineTable

end KernelMenu

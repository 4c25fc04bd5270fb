/-!
Lines and columns of a source. Only a line feed ends a line; columns count characters, except that
an offset inside a character has the number of bytes since the line's start as its column.
-/

namespace KernelMenu

/-- Lines and columns are counted from zero, and printed from one. -/
structure Position where
  offset : Nat
  line : Nat
  column : Nat
deriving DecidableEq, Repr

namespace Position

def text (position : Position) : String :=
  toString (position.line + 1) ++ ":" ++ toString (position.column + 1)

/-- The line and column `distance` bytes further on, from a place that is `characters` characters
and `bytes` bytes into line `line`. -/
def advance (line characters bytes : Nat) : List Char → Nat → Nat × Nat
  | [], _ => (line, characters)
  | char :: rest, distance =>
      if distance = 0 then (line, characters)
      else if distance < char.utf8Size then (line, bytes + distance)
      else if char = '\n' then advance (line + 1) 0 0 rest (distance - 1)
      else advance line (characters + 1) (bytes + char.utf8Size) rest (distance - char.utf8Size)

/-- An offset past the end means the end. -/
def ofOffset (source : String) (offset : Nat) : Position :=
  let clamped := min offset source.utf8ByteSize
  let (line, column) := advance 0 0 0 source.toList clamped
  ⟨clamped, line, column⟩

end Position

end KernelMenu

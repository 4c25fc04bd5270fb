import KernelMenu.Token

/-!
Printed text as tokens with gaps between them, so that one can speak of the text of a print-out
and of its tokens at the same time.
-/

namespace KernelMenu

inductive Piece where
  | token (word : Token)
  | gap (blanks : String)
deriving DecidableEq, Repr

namespace Piece

def space : Piece := gap " "

def text : Piece → String
  | token word => word.spelling
  | gap blanks => blanks

def render (pieces : List Piece) : String := String.join (pieces.map text)

def tokens (pieces : List Piece) : List Token :=
  pieces.filterMap fun
    | token word => some word
    | gap _ => none

def spaced (words : List (List Piece)) : List Piece := [space].intercalate words

end Piece

end KernelMenu

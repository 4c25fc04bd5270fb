import KernelMenu.Piece

/-!
Conditions and values: the boolean and tristate expressions that stand between brackets. Nothing
here evaluates them; they are read, combined and printed. Printing puts parentheses only where the
binding strength of an operator asks for them.
-/

namespace KernelMenu

/-- A `literal` keeps the escape pairs of its text; `int` and `hex` keep their digits as written.
The expression `yes` is also the condition of what has none. -/
inductive Expr where
  | yes
  | mod
  | no
  | id (name : String)
  | literal (body : String)
  | int (digits : String)
  | hex (digits : String)
  | not (operand : Expr)
  | and (left right : Expr)
  | or (left right : Expr)
  | eq (left right : Expr)
  | ne (left right : Expr)
deriving DecidableEq, Repr, Inhabited

namespace Expr

def isYes : Expr → Bool
  | yes => true
  | _ => false

/-- Both conditions at once; one that always holds leaves no trace. -/
def conjoin (left right : Expr) : Expr :=
  if right.isYes then left else if left.isYes then right else and left right

def ofName (name : String) : Expr :=
  if name = "y" then yes else if name = "m" then mod else if name = "n" then no else id name

def strength : Expr → Nat
  | or _ _ => 1
  | and _ _ => 2
  | eq _ _ | ne _ _ => 3
  | not _ => 4
  | _ => 5

/-- The tokens and gaps of the printed expression. An operand that binds too loosely for its place
stands in parentheses. -/
def pieces : Expr → List Piece
  | yes => [.token (.ident "y")]
  | mod => [.token (.ident "m")]
  | no => [.token (.ident "n")]
  | id name => [.token (.ident name)]
  | literal body => [.token (.text body)]
  | int digits => [.token (.int digits)]
  | hex digits => [.token (.hex digits)]
  | not operand => .token (.mark .not) :: enclose (operand.strength < 4) operand.pieces
  | and left right =>
      enclose (left.strength < 2) left.pieces ++ spaced .and ++
        enclose (right.strength < 3) right.pieces
  | or left right =>
      enclose (left.strength < 1) left.pieces ++ spaced .or ++
        enclose (right.strength < 2) right.pieces
  | eq left right =>
      enclose (left.strength < 4) left.pieces ++ [.token (.mark .eq)] ++
        enclose (right.strength < 4) right.pieces
  | ne left right =>
      enclose (left.strength < 4) left.pieces ++ [.token (.mark .ne)] ++
        enclose (right.strength < 4) right.pieces
where
  enclose (needed : Bool) (inner : List Piece) : List Piece :=
    if needed then .token (.mark .openParen) :: inner ++ [.token (.mark .closeParen)] else inner
  spaced (sign : Mark) : List Piece := [Piece.space, .token (.mark sign), Piece.space]

def text (expr : Expr) : String := Piece.render expr.pieces

end Expr

end KernelMenu

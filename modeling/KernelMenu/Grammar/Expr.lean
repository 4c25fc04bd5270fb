import KernelMenu.Expr
import KernelMenu.Grammar.Rule

/-!
The rules for expressions. From loosest to tightest: alternatives, conjunctions, one comparison at
most, negations, and values or parenthesised expressions.
-/

namespace KernelMenu.Grammar

open Rule

def keyword (wanted : Keyword) : Rule Token := exactly (.keyword wanted)

def mark (wanted : Mark) : Rule Token := exactly (.mark wanted)

/-- A rule between an opening and a closing mark. -/
def enclosed {Value : Type} (opening closing : Mark) (rule : Rule Value) : Rule Value :=
  ((mark opening).before rule).closedBy (mark closing)

def identifier : Rule String :=
  classified .identifier fun
    | .ident name => some name
    | _ => none

def quotedText : Rule String :=
  classified .text fun
    | .text body => some body
    | _ => none

def value : Rule Expr :=
  classified .value fun
    | .ident name => some (.ofName name)
    | .int digits => some (.int digits)
    | .hex digits => some (.hex digits)
    | .text body => some (.literal body)
    | _ => none

def atom (expr : Rule Expr) : Rule Expr := value.orElse (enclosed .openParen .closeParen expr)

def negation (expr : Rule Expr) : Rule Expr :=
  ((mark .not).many.both (atom expr)).map fun (signs, operand) =>
    signs.foldr (fun _ operand => .not operand) operand

/-- A negation, perhaps compared with another one; comparisons do not chain. -/
def comparison (expr : Rule Expr) : Rule Expr :=
  let sign := ((mark .eq).map fun _ => Expr.eq).orElse ((mark .ne).map fun _ => Expr.ne)
  ((negation expr).both (sign.both (negation expr)).optional).map fun
    | (left, some (compare, right)) => compare left right
    | (left, none) => left

/-- One operand or more with a sign between them, grouped from the left. -/
def chain (sign : Mark) (combine : Expr → Expr → Expr) (operand : Rule Expr) : Rule Expr :=
  (operand.both ((mark sign).before operand).many).map fun (first, others) =>
    others.foldl combine first

def conjunction (expr : Rule Expr) : Rule Expr := chain .and .and (comparison expr)

def disjunction (expr : Rule Expr) : Rule Expr := chain .or .or (conjunction expr)

def expression : Rule Expr := recursive disjunction

/-- An expression in brackets; empty brackets stand for what always holds. -/
def bracketed : Rule Expr :=
  (enclosed .openBracket .closeBracket expression.optional).map (Option.getD · .yes)

/-- The guard that may end a clause. What is followed by a brace is no guard of the clause but
the head of a conditional block. -/
def guard : Rule Expr :=
  let blockless := ((otherThan (.mark .openBrace)).orElse endOfInput).ahead
  (((keyword .guard).before bracketed).closedBy blockless).optional.map (Option.getD · .yes)

end KernelMenu.Grammar

import KernelMenu.Expr

/-!
The clauses that describe an entry: prompts, values, ranges, selections, environment names and
dependencies. All but a dependency are a payload with the condition under which it counts.
-/

namespace KernelMenu

inductive ValueType where
  | boolean | tristate | integer | hex | string
deriving DecidableEq, Repr

namespace ValueType

def all : List ValueType := [boolean, tristate, integer, hex, string]

def keyword : ValueType → Keyword
  | boolean => .boolean
  | tristate => .tristate
  | integer => .integer
  | hex => .hex
  | string => .string

def text (type : ValueType) : String := type.keyword.spelling

end ValueType

/-- A payload that counts under a condition. -/
structure Guarded (Payload : Type) where
  payload : Payload
  condition : Expr
deriving DecidableEq, Repr

/-- The ends of a range, both included. -/
structure Bounds where
  low : Expr
  high : Expr
deriving DecidableEq, Repr

inductive Property where
  | prompt (text : Guarded String)
  | dependsOn (condition : Expr)
  | default (value : Guarded Expr)
  | range (bounds : Guarded Bounds)
  | select (target : Guarded String)
  | env (name : Guarded String)
deriving DecidableEq, Repr

namespace Property

def prompt? : Property → Option (Guarded String)
  | prompt text => some text
  | _ => none

def dependsOn? : Property → Option Expr
  | dependsOn condition => some condition
  | _ => none

def default? : Property → Option (Guarded Expr)
  | default value => some value
  | _ => none

def range? : Property → Option (Guarded Bounds)
  | range bounds => some bounds
  | _ => none

def select? : Property → Option (Guarded String)
  | select target => some target
  | _ => none

def env? : Property → Option (Guarded String)
  | env name => some name
  | _ => none

def summary : Property → String
  | prompt text => "Prompt('" ++ text.payload ++ "')"
  | dependsOn condition => "DependsOn([" ++ condition.text ++ "])"
  | default value => "Default([" ++ value.payload.text ++ "])"
  | range bounds => "Range([" ++ bounds.payload.low.text ++ " " ++ bounds.payload.high.text ++ "])"
  | select target => "Select(" ++ target.payload ++ ")"
  | env name => "Env(" ++ name.payload ++ ")"

end Property

end KernelMenu

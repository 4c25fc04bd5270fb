import KernelMenu.Token

/-!
Rules that read a value from the front of a token list, and remember what they were looking for.

A rule fails at the furthest token that one of its attempts reached; attempts that reach equally
far pool what they looked for. A rule that succeeds may still remember a failed attempt, which
counts if what follows fails no later. All places are counted from where the rule starts.
-/

namespace KernelMenu.Grammar

inductive TokenClass where
  | identifier | value | text | type
deriving DecidableEq, Repr

namespace TokenClass

def label : TokenClass → String
  | identifier => "identifier"
  | value => "identifier or value"
  | text => "string literal"
  | type => "type"

end TokenClass

inductive Want where
  | token (wanted : Token)
  | endOfInput
  | oneOf (tokens : TokenClass)
deriving DecidableEq, Repr

/-- The place of a failure as a number of tokens, and all that was looked for there. -/
structure Failure where
  place : Nat
  wants : List Want
deriving DecidableEq, Repr

namespace Failure

/-- The failure that reached further, or both at once. -/
def further (left right : Failure) : Failure :=
  if left.place < right.place then right
  else if right.place < left.place then left
  else ⟨left.place, left.wants ++ right.wants⟩

def shift (count : Nat) (failure : Failure) : Failure :=
  ⟨count + failure.place, failure.wants⟩

def further? : Option Failure → Option Failure → Option Failure
  | none, right => right
  | left, none => left
  | some left, some right => some (left.further right)

end Failure

/-- A value read from `used` tokens, perhaps with the failure of an attempt at more; or the
failure of all attempts. -/
inductive Outcome (Value : Type) where
  | ok (value : Value) (used : Nat) (missed : Option Failure)
  | fail (failure : Failure)
deriving DecidableEq, Repr

abbrev Rule (Value : Type) := List Token → Outcome Value

namespace Rule

variable {Value Value' : Type}

def exactly (wanted : Token) : Rule Token
  | token :: _ =>
      if token = wanted then .ok token 1 none else .fail ⟨0, [.token wanted]⟩
  | [] => .fail ⟨0, [.token wanted]⟩

/-- Reads one token of a class, and gives what it stands for. -/
def classified (tokens : TokenClass) (meaning : Token → Option Value) : Rule Value
  | token :: _ =>
      match meaning token with
      | some value => .ok value 1 none
      | none => .fail ⟨0, [.oneOf tokens]⟩
  | [] => .fail ⟨0, [.oneOf tokens]⟩

/-- Reads one token that differs from a given one, and looks for nothing in particular. -/
def otherThan (avoided : Token) : Rule Unit
  | token :: _ => if token = avoided then .fail ⟨0, []⟩ else .ok () 1 none
  | [] => .fail ⟨0, []⟩

def endOfInput : Rule Unit
  | [] => .ok () 0 none
  | _ :: _ => .fail ⟨0, [.endOfInput]⟩

def map (change : Value → Value') (rule : Rule Value) : Rule Value' := fun tokens =>
  match rule tokens with
  | .ok value used missed => .ok (change value) used missed
  | .fail failure => .fail failure

def both (first : Rule Value) (second : Rule Value') : Rule (Value × Value') := fun tokens =>
  match first tokens with
  | .fail failure => .fail failure
  | .ok value used missed =>
      match second (tokens.drop used) with
      | .ok value' used' missed' =>
          .ok (value, value') (used + used')
            (Failure.further? missed (missed'.map (Failure.shift used)))
      | .fail failure =>
          .fail (match missed with
            | none => failure.shift used
            | some missed => missed.further (failure.shift used))

def before (first : Rule Value) (second : Rule Value') : Rule Value' :=
  (first.both second).map Prod.snd

def closedBy (first : Rule Value) (second : Rule Value') : Rule Value :=
  (first.both second).map Prod.fst

/-- The first rule, or else the second with the first one's failure remembered. -/
def orElse (first second : Rule Value) : Rule Value := fun tokens =>
  match first tokens with
  | .ok value used missed => .ok value used missed
  | .fail failure =>
      match second tokens with
      | .ok value used missed => .ok value used (Failure.further? missed (some failure))
      | .fail failure' => .fail (failure.further failure')

/-- The first rule of a list that succeeds, with all earlier failures forgotten. -/
def firstOf (rule : Rule Value) : List (Rule Value) → Rule Value
  | [] => rule
  | next :: rules => fun tokens =>
      match rule tokens with
      | .ok value used missed => .ok value used missed
      | .fail failure =>
          match firstOf next rules tokens with
          | .ok value used missed => .ok value used missed
          | .fail failure' => .fail (failure.further failure')

/-- The value of a rule, or none with its failure remembered. -/
def optional (rule : Rule Value) : Rule (Option Value) := fun tokens =>
  match rule tokens with
  | .ok value used missed => .ok (some value) used missed
  | .fail failure => .ok none 0 (some failure)

/-- Runs a rule and takes no token. -/
def ahead (rule : Rule Value) : Rule Value := fun tokens =>
  match rule tokens with
  | .ok value _ missed => .ok value 0 missed
  | .fail failure => .fail failure

/-- Runs a rule until it fails. A turn that takes nothing ends the repetition as well. -/
def many (rule : Rule Value) : Rule (List Value) := fun tokens =>
  match rule tokens with
  | .fail failure => .ok [] 0 (some failure)
  | .ok value used missed =>
      if _ : 0 < used ∧ used ≤ tokens.length then
        match many rule (tokens.drop used) with
        | .ok values used' missed' =>
            .ok (value :: values) (used + used')
              (Failure.further? missed (missed'.map (Failure.shift used)))
        | .fail failure => .fail (failure.shift used)
      else .ok [] 0 missed
termination_by tokens => tokens.length
decreasing_by rw [List.length_drop]; omega

/-- A rule defined through itself, on the condition that it calls itself on shorter lists only. -/
def recursive (body : Rule Value → Rule Value) : Rule Value := fun tokens =>
  body (fun rest =>
    if _ : rest.length < tokens.length then recursive body rest else .fail ⟨0, []⟩) tokens
termination_by tokens => tokens.length

end Rule

end KernelMenu.Grammar

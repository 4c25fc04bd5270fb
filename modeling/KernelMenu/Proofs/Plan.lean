import KernelMenu.Grammar.Symbol

/-!
The grammar as data. What a plan stands for is a rule, and the plan of a rule follows how the rule
is built; the plans of the rules that are defined through themselves name each other. A watched run
of a plan does what the rule does, but stops at what a reader must never do: repeat what took
nothing, call a rule again before a token was taken, or have more calls open than allowed.
-/

namespace KernelMenu.Grammar

/-- The rules that are defined through themselves. -/
inductive Callee where
  | symbols | expression
deriving DecidableEq, Repr

@[reducible]
def Callee.Value : Callee → Type
  | symbols => List Draft
  | expression => Expr

inductive Plan : Type → Type 1 where
  | exactly (wanted : Token) : Plan Token
  | classified {Value : Type} (tokens : TokenClass) (meaning : Token → Option Value) : Plan Value
  | otherThan (avoided : Token) : Plan Unit
  | endOfInput : Plan Unit
  | call (callee : Callee) : Plan callee.Value
  | map {Value Value' : Type} (change : Value → Value') (plan : Plan Value) : Plan Value'
  | both {Value Value' : Type} (first : Plan Value) (second : Plan Value') : Plan (Value × Value')
  | orElse {Value : Type} (first second : Plan Value) : Plan Value
  | firstOf {Value : Type} (first second : Plan Value) : Plan Value
  | optional {Value : Type} (plan : Plan Value) : Plan (Option Value)
  | ahead {Value : Type} (plan : Plan Value) : Plan Value
  | many {Value : Type} (plan : Plan Value) : Plan (List Value)

inductive Mishap where
  | idleTurn | idleCall | deepCall
deriving DecidableEq, Repr

abbrev Watched := Except Mishap

namespace Plan

variable {Value Value' : Type}

/-- The rule that a plan stands for, given the rules that it calls. -/
def rule (rules : (callee : Callee) → Rule callee.Value) {Value : Type} :
    Plan Value → Rule Value
  | exactly wanted => Rule.exactly wanted
  | classified tokens meaning => Rule.classified tokens meaning
  | otherThan avoided => Rule.otherThan avoided
  | endOfInput => Rule.endOfInput
  | call callee => rules callee
  | map change plan => (plan.rule rules).map change
  | both first second => (first.rule rules).both (second.rule rules)
  | orElse first second => (first.rule rules).orElse (second.rule rules)
  | firstOf first second => Rule.firstOf (first.rule rules) [second.rule rules]
  | optional plan => (plan.rule rules).optional
  | ahead plan => (plan.rule rules).ahead
  | many plan => (plan.rule rules).many

section Run

/-- Turns of a repetition, up to the first one that fails. -/
def turns (turn : List Token → Watched (Outcome Value)) (tokens : List Token) :
    Watched (Outcome (List Value)) := do
  match ← turn tokens with
  | .fail failure => .ok (.ok [] 0 (some failure))
  | .ok value used missed =>
      if _ : 0 < used ∧ used ≤ tokens.length then
        match ← turns turn (tokens.drop used) with
        | .fail failure => .ok (.fail (failure.shift used))
        | .ok values used' missed' =>
            .ok (.ok (value :: values) (used + used')
              (Failure.further? missed (missed'.map (Failure.shift used))))
      else .error .idleTurn
termination_by tokens.length
decreasing_by rw [List.length_drop]; omega

/-- A watched run, in which calls are left to `calls`. Once the outcomes of the parts are known,
that of the whole is what the rule makes of them. -/
def run (calls : (callee : Callee) → List Token → Watched (Outcome callee.Value)) {Value : Type} :
    Plan Value → List Token → Watched (Outcome Value)
  | exactly wanted, tokens => .ok (Rule.exactly wanted tokens)
  | classified tokens meaning, list => .ok (Rule.classified tokens meaning list)
  | otherThan avoided, tokens => .ok (Rule.otherThan avoided tokens)
  | endOfInput, tokens => .ok (Rule.endOfInput tokens)
  | call callee, tokens => calls callee tokens
  | map change plan, tokens => do
      let outcome ← plan.run calls tokens
      .ok (Rule.map change (fun _ => outcome) tokens)
  | both first second, tokens => do
      match ← first.run calls tokens with
      | .fail failure => .ok (.fail failure)
      | .ok value used missed =>
          let outcome ← second.run calls (tokens.drop used)
          .ok (Rule.both (fun _ => .ok value used missed) (fun _ => outcome) tokens)
  | orElse first second, tokens => do
      match ← first.run calls tokens with
      | .ok value used missed => .ok (.ok value used missed)
      | .fail failure =>
          let outcome ← second.run calls tokens
          .ok (Rule.orElse (fun _ => .fail failure) (fun _ => outcome) tokens)
  | firstOf first second, tokens => do
      match ← first.run calls tokens with
      | .ok value used missed => .ok (.ok value used missed)
      | .fail failure =>
          let outcome ← second.run calls tokens
          .ok (Rule.firstOf (fun _ => .fail failure) [fun _ => outcome] tokens)
  | optional plan, tokens => do
      let outcome ← plan.run calls tokens
      .ok (Rule.optional (fun _ => outcome) tokens)
  | ahead plan, tokens => do
      let outcome ← plan.run calls tokens
      .ok (Rule.ahead (fun _ => outcome) tokens)
  | many plan, tokens => turns (plan.run calls) tokens

/-- A repetition of what may take nothing is stopped. -/
example : (many (optional (exactly (.mark .not)))).run (fun _ _ => .error .deepCall) [] =
    .error .idleTurn := by
  rw [run, turns]
  rfl

end Run

end Plan

section Planned

variable {rules : (callee : Callee) → Rule callee.Value} {Value Value' : Type}

/-- A rule that is built from combinators and calls, with its plan. -/
class Planned (rules : (callee : Callee) → Rule callee.Value) {Value : Type}
    (rule : Rule Value) where
  plan : Plan Value
  rule_eq : plan.rule rules = rule

section Combinators

variable {first second : Rule Value} {other : Rule Value'}

instance (wanted : Token) : Planned rules (Rule.exactly wanted) := ⟨.exactly wanted, rfl⟩

instance (tokens : TokenClass) (meaning : Token → Option Value) :
    Planned rules (Rule.classified tokens meaning) := ⟨.classified tokens meaning, rfl⟩

instance (avoided : Token) : Planned rules (Rule.otherThan avoided) := ⟨.otherThan avoided, rfl⟩

instance : Planned rules Rule.endOfInput := ⟨.endOfInput, rfl⟩

instance [planned : Planned rules first] (change : Value → Value') :
    Planned rules (first.map change) where
  plan := .map change planned.plan
  rule_eq := by rw [Plan.rule, planned.rule_eq]

instance [planned : Planned rules first] [planned' : Planned rules other] :
    Planned rules (first.both other) where
  plan := .both planned.plan planned'.plan
  rule_eq := by rw [Plan.rule, planned.rule_eq, planned'.rule_eq]

instance [planned : Planned rules first] [planned' : Planned rules second] :
    Planned rules (first.orElse second) where
  plan := .orElse planned.plan planned'.plan
  rule_eq := by rw [Plan.rule, planned.rule_eq, planned'.rule_eq]

instance [planned : Planned rules first] : Planned rules (Rule.firstOf first []) := planned

instance [planned : Planned rules first] {others : List (Rule Value)}
    [planned' : Planned rules (Rule.firstOf second others)] :
    Planned rules (Rule.firstOf first (second :: others)) where
  plan := .firstOf planned.plan planned'.plan
  rule_eq := by
    rw [Plan.rule, planned.rule_eq, planned'.rule_eq]
    rfl

instance [planned : Planned rules first] : Planned rules first.optional where
  plan := .optional planned.plan
  rule_eq := by rw [Plan.rule, planned.rule_eq]

instance [planned : Planned rules first] : Planned rules first.ahead where
  plan := .ahead planned.plan
  rule_eq := by rw [Plan.rule, planned.rule_eq]

instance [planned : Planned rules first] : Planned rules first.many where
  plan := .many planned.plan
  rule_eq := by rw [Plan.rule, planned.rule_eq]

instance [Planned rules first] [Planned rules other] : Planned rules (first.before other) := by
  delta Rule.before; infer_instance

instance [Planned rules first] [Planned rules other] : Planned rules (first.closedBy other) := by
  delta Rule.closedBy; infer_instance

end Combinators

def Callee.choose (inner : Rule (List Draft)) (expr : Rule Expr) :
    (callee : Callee) → Rule callee.Value
  | symbols => inner
  | expression => expr

section Rules

variable {inner : Rule (List Draft)} {expr : Rule Expr}

instance : Planned (Callee.choose inner expr) inner := ⟨.call .symbols, rfl⟩

instance : Planned (Callee.choose inner expr) expr := ⟨.call .expression, rfl⟩

section Parts

variable {part : Rule Value} [Planned rules part]

instance (wanted : Keyword) : Planned rules (keyword wanted) := by delta keyword; infer_instance

instance (wanted : Mark) : Planned rules (mark wanted) := by delta mark; infer_instance

instance (opening closing : Mark) : Planned rules (enclosed opening closing part) := by
  delta enclosed; infer_instance

instance : Planned rules (block part) := by delta block; infer_instance

instance : Planned rules identifier := by delta identifier; infer_instance

instance : Planned rules quotedText := by delta quotedText; infer_instance

instance : Planned rules value := by delta value; infer_instance

instance : Planned rules bounds := by delta bounds; infer_instance

instance : Planned rules valueType := by delta valueType; infer_instance

instance : Planned rules entryKeyword := by delta entryKeyword; infer_instance

end Parts

section Expressions

variable {operand : Rule Expr} [Planned rules operand]

instance : Planned rules (atom operand) := by delta atom; infer_instance

instance : Planned rules (negation operand) := by delta negation; infer_instance

instance : Planned rules (comparison operand) := by delta comparison; infer_instance

instance (sign : Mark) (combine : Expr → Expr → Expr) :
    Planned rules (chain sign combine operand) := by
  delta chain; infer_instance

instance : Planned rules (conjunction operand) := by delta conjunction; infer_instance

instance : Planned rules (disjunction operand) := by delta disjunction; infer_instance

end Expressions

section Symbols

variable [Planned rules expression]

instance : Planned rules bracketed := by delta bracketed; infer_instance

instance : Planned rules guard := by delta guard; infer_instance

instance {Payload : Type} (name : Keyword) {payload : Rule Payload} [Planned rules payload] :
    Planned rules (clause name payload) := by
  delta clause; infer_instance

instance : Planned rules promptClause := by delta promptClause; infer_instance

instance : Planned rules defaultClause := by delta defaultClause; infer_instance

instance : Planned rules rangeClause := by delta rangeClause; infer_instance

instance : Planned rules selectClause := by delta selectClause; infer_instance

instance : Planned rules envClause := by delta envClause; infer_instance

instance : Planned rules dependency := by delta dependency; infer_instance

instance : Planned rules dependsClause := by delta dependsClause; infer_instance

instance : Planned rules property := by delta property; infer_instance

instance : Planned rules choiceProperty := by delta choiceProperty; infer_instance

instance : Planned rules inheritedClause := by delta inheritedClause; infer_instance

variable [Planned rules inner]

instance : Planned rules (entry inner) := by delta entry; infer_instance

instance : Planned rules (entryNode inner) := by delta entryNode; infer_instance

instance : Planned rules (choiceNode inner) := by delta choiceNode; infer_instance

instance : Planned rules (menuNode inner) := by delta menuNode; infer_instance

instance : Planned rules (conditionalBlock inner) := by delta conditionalBlock; infer_instance

instance : Planned rules (sequenceItem inner) := by delta sequenceItem; infer_instance

instance : Planned rules (sequence inner) := by delta sequence; infer_instance

instance [Planned rules symbols] : Planned rules source := by delta source; infer_instance

end Symbols

end Rules

end Planned

namespace Plan

def sequence : Plan (List Draft) :=
  Planned.plan (Callee.choose symbols expression) (Grammar.sequence symbols)

def disjunction : Plan Expr :=
  Planned.plan (Callee.choose symbols expression) (Grammar.disjunction expression)

def source : Plan (List Draft) :=
  Planned.plan (Callee.choose symbols expression) Grammar.source

end Plan

namespace Callee

/-- The body of a rule that is defined through itself. -/
def plan : (callee : Callee) → Plan callee.Value
  | symbols => Plan.sequence
  | expression => Plan.disjunction

def rule : (callee : Callee) → Rule callee.Value
  | symbols => Grammar.symbols
  | expression => Grammar.expression

/-- A watched call with at most `depth` calls open at once. Calls from within start later. -/
def runWithin : Nat → (callee : Callee) → List Token → Watched (Outcome callee.Value)
  | 0, _, _ => .error .deepCall
  | depth + 1, callee, tokens =>
      callee.plan.run (fun next rest =>
        if rest.length < tokens.length then next.runWithin depth rest else .error .idleCall) tokens

end Callee

end KernelMenu.Grammar

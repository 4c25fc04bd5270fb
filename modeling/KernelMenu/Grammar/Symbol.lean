import KernelMenu.Draft
import KernelMenu.Grammar.Expr

/-!
The rules for clauses and for the four kinds of symbols. A conditional block is read and left out:
what it holds becomes part of the sequence around it, and its guard leaves no trace.
-/

namespace KernelMenu.Grammar

open Rule

def clause {Payload : Type} (name : Keyword) (payload : Rule Payload) : Rule (Guarded Payload) :=
  (((keyword name).before payload).both guard).map fun (payload, condition) =>
    ⟨payload, condition⟩

def promptClause : Rule Property := (clause .prompt quotedText).map .prompt

def defaultClause : Rule Property := (clause .default bracketed).map .default

def bounds : Rule Bounds :=
  (enclosed .openBracket .closeBracket (value.both value)).map fun (low, high) => ⟨low, high⟩

def rangeClause : Rule Property := (clause .range bounds).map .range

def selectClause : Rule Property := (clause .select identifier).map .select

def envClause : Rule Property := (clause .env identifier).map .env

/-- A dependency; its guard becomes part of the one condition. -/
def dependency : Rule Expr :=
  (clause .depends ((keyword .on).before bracketed)).map fun clause =>
    clause.payload.conjoin clause.condition

def dependsClause : Rule Property := dependency.map .dependsOn

def property : Rule Property :=
  firstOf promptClause [dependsClause, defaultClause, rangeClause, selectClause, envClause]

def choiceProperty : Rule Property := firstOf promptClause [defaultClause, dependsClause]

def inheritedClause : Rule Expr := (keyword .inherited).before bracketed

def valueType : Rule ValueType :=
  classified .type fun
    | .keyword .boolean => some .boolean
    | .keyword .tristate => some .tristate
    | .keyword .integer => some .integer
    | .keyword .hex => some .hex
    | .keyword .string => some .string
    | _ => none

def block {Value : Type} (inner : Rule Value) : Rule Value :=
  enclosed .openBrace .closeBrace inner

def entryKeyword : Rule Bool :=
  ((keyword .config).map fun _ => false).orElse ((keyword .menuconfig).map fun _ => true)

/-- An entry with or without a body. -/
def entry (symbols : Rule (List Draft)) : Rule (ConfigClauses × List Draft) :=
  let body := block ((property.many.both inheritedClause.optional).both symbols)
  (((entryKeyword.both identifier).both valueType).both body.optional).map fun
    | (((isMenu, name), type), some ((properties, inherited), children)) =>
        (⟨name, isMenu, type, properties, inherited⟩, children)
    | (((isMenu, name), type), none) => (⟨name, isMenu, type, [], none⟩, [])

def entryNode (symbols : Rule (List Draft)) : Rule Draft :=
  (entry symbols).map fun (head, children) => .entry head children

def choiceNode (symbols : Rule (List Draft)) : Rule Draft :=
  let header := ((keyword .choice).before valueType).both
    ((keyword .optional).optional.map Option.isSome)
  (header.both (block (choiceProperty.many.both (entry symbols).many))).map
    fun ((type, isOptional), (properties, options)) =>
      .choice ⟨type, isOptional, properties⟩ options

def menuNode (symbols : Rule (List Draft)) : Rule Draft :=
  (((keyword .menu).before quotedText).both (block (dependency.optional.both symbols))).map
    fun (title, dependsOn, children) => .menu ⟨title, dependsOn⟩ children

/-- A block under a guard that is dropped. -/
def conditionalBlock (symbols : Rule (List Draft)) : Rule (List Draft) :=
  (keyword .guard).before (bracketed.before (block symbols))

/-- What one turn of a sequence reads: a node, or all that stands in a conditional block. -/
def sequenceItem (symbols : Rule (List Draft)) : Rule (List Draft) :=
  ((firstOf (menuNode symbols) [entryNode symbols, choiceNode symbols]).map fun node =>
    [node]).orElse (conditionalBlock symbols)

def sequence (symbols : Rule (List Draft)) : Rule (List Draft) :=
  (sequenceItem symbols).many.map List.flatten

def symbols : Rule (List Draft) := recursive sequence

def source : Rule (List Draft) := symbols.closedBy endOfInput

end KernelMenu.Grammar

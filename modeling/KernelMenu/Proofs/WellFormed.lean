import KernelMenu.Proofs.TokenReading
import KernelMenu.Symbol

/-!
Trees that can be written down: every name, number and text in them is the payload of a token that a
source can hold, the ends of a range are single values, and the root is the one of a source.
-/

namespace KernelMenu

def IsText (text : String) : Prop := TextUnits text.toList

instance (text : String) : Decidable (IsText text) :=
  inferInstanceAs (Decidable (TextUnits text.toList))

namespace Expr

def isLeaf : Expr → Bool
  | not _ | and _ _ | or _ _ | eq _ _ | ne _ _ => false
  | yes | mod | no | id _ | literal _ | int _ | hex _ => true

inductive WellFormed : Expr → Prop
  | yes : WellFormed .yes
  | mod : WellFormed .mod
  | no : WellFormed .no
  | id {name : String} : PlainName name → name ∉ ["y", "m", "n"] → WellFormed (.id name)
  | literal {body : String} : IsText body → WellFormed (.literal body)
  | int {digits : String} : SignedDigits digits.toList → WellFormed (.int digits)
  | hex {digits : String} : isHexWord digits.toList = true → WellFormed (.hex digits)
  | not {operand : Expr} : WellFormed operand → WellFormed (.not operand)
  | and {left right : Expr} : WellFormed left → WellFormed right → WellFormed (.and left right)
  | or {left right : Expr} : WellFormed left → WellFormed right → WellFormed (.or left right)
  | eq {left right : Expr} : WellFormed left → WellFormed right → WellFormed (.eq left right)
  | ne {left right : Expr} : WellFormed left → WellFormed right → WellFormed (.ne left right)

end Expr

structure Bounds.WellFormed (bounds : Bounds) : Prop where
  low : bounds.low.WellFormed
  high : bounds.high.WellFormed
  lowLeaf : bounds.low.isLeaf = true
  highLeaf : bounds.high.isLeaf = true

structure Guarded.WellFormed {Payload : Type} (valid : Payload → Prop)
    (clause : Guarded Payload) : Prop where
  payload : valid clause.payload
  condition : clause.condition.WellFormed

structure Config.WellFormed (config : Config) : Prop where
  name : PlainName config.name
  inherited : config.inherited.WellFormed
  prompt : ∀ prompt ∈ config.prompt, prompt.WellFormed IsText
  defaults : ∀ value ∈ config.defaults, value.WellFormed Expr.WellFormed
  selects : ∀ target ∈ config.selects, target.WellFormed PlainName
  ranges : ∀ bounds ∈ config.ranges, bounds.WellFormed Bounds.WellFormed
  dependsOn : ∀ condition ∈ config.dependsOn, condition.WellFormed
  env : ∀ name ∈ config.env, name.WellFormed PlainName

structure Choice.WellFormed (choice : Choice) : Prop where
  prompt : choice.prompt.WellFormed IsText
  defaults : ∀ value ∈ choice.defaults, value.WellFormed Expr.WellFormed
  dependsOn : ∀ condition ∈ choice.dependsOn, condition.WellFormed

/-- What holds of every head in an outline, for each kind of head. -/
inductive Outline.Each {Entry Menu Choice : Type} (ofEntry : Entry → Prop) (ofMenu : Menu → Prop)
    (ofChoice : Choice → Prop) : Outline Entry Menu Choice → Prop
  | entry {head : Entry} {children : List (Outline Entry Menu Choice)} : ofEntry head →
      (∀ child ∈ children, Each ofEntry ofMenu ofChoice child) →
      Each ofEntry ofMenu ofChoice (.entry head children)
  | menu {head : Menu} {children : List (Outline Entry Menu Choice)} : ofMenu head →
      (∀ child ∈ children, Each ofEntry ofMenu ofChoice child) →
      Each ofEntry ofMenu ofChoice (.menu head children)
  | choice {head : Choice} {options : List (Entry × List (Outline Entry Menu Choice))} :
      ofChoice head → (∀ option ∈ options, ofEntry option.1) →
      (∀ option ∈ options, ∀ child ∈ option.2, Each ofEntry ofMenu ofChoice child) →
      Each ofEntry ofMenu ofChoice (.choice head options)

def Symbol.WellFormed : Symbol → Prop :=
  Outline.Each Config.WellFormed (Guarded.WellFormed IsText) Choice.WellFormed

structure Root.WellFormed (root : Root) : Prop where
  prompt : root.prompt = ⟨Root.title, .yes⟩
  children : ∀ child ∈ root.children, child.WellFormed

end KernelMenu

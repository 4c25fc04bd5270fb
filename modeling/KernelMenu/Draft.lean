import KernelMenu.Symbol

/-!
A menu as it was read: the clauses of an entry or a choice still stand in one list, in the order of
the source. Sorting them by kind gives the tree, unless a choice has no prompt.
-/

namespace KernelMenu

structure ConfigClauses where
  name : String
  isMenu : Bool
  type : ValueType
  properties : List Property
  inherited : Option Expr
deriving DecidableEq, Repr

structure MenuClauses where
  title : String
  dependsOn : Option Expr
deriving DecidableEq, Repr

structure ChoiceClauses where
  type : ValueType
  isOptional : Bool
  properties : List Property
deriving DecidableEq, Repr

abbrev Draft := Outline ConfigClauses MenuClauses ChoiceClauses

/-- The first prompt of an entry counts, and all of its other clauses. -/
def ConfigClauses.sorted (draft : ConfigClauses) : Config where
  name := draft.name
  isMenu := draft.isMenu
  type := draft.type
  inherited := draft.inherited.getD .yes
  prompt := draft.properties.findSome? Property.prompt?
  defaults := draft.properties.filterMap Property.default?
  selects := draft.properties.filterMap Property.select?
  ranges := draft.properties.filterMap Property.range?
  dependsOn := draft.properties.filterMap Property.dependsOn?
  env := draft.properties.filterMap Property.env?

/-- The title of a menu, under the condition that the menu depends on. -/
def MenuClauses.heading (draft : MenuClauses) : Guarded String :=
  ⟨draft.title, draft.dependsOn.getD .yes⟩

def ChoiceClauses.prompt? (draft : ChoiceClauses) : Option (Guarded String) :=
  draft.properties.findSome? Property.prompt?

def ChoiceClauses.sorted? (draft : ChoiceClauses) : Option Choice := do
  let prompt ← draft.prompt?
  some {
    prompt
    isBoolean := draft.type = .boolean
    isMandatory := !draft.isOptional
    defaults := draft.properties.filterMap Property.default?
    dependsOn := draft.properties.filterMap Property.dependsOn? }

namespace Draft

def symbol? : Draft → Option Symbol :=
  Outline.convert ConfigClauses.sorted MenuClauses.heading ChoiceClauses.sorted?

/-- How many choices stand before the first one without a prompt. -/
def promptlessChoice? (drafts : List Draft) : Option Nat :=
  (drafts.flatMap Outline.choices).findIdx? fun choice => choice.prompt?.isNone

end Draft

end KernelMenu

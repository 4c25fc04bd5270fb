import KernelMenu.Markup
import KernelMenu.Symbol

/-!
The tag dump of a tree: an element for each node and for each of its clauses. Conditions that do
not always hold are attributes; dependencies are printed as text.
-/

namespace KernelMenu

namespace Dump

def conditionAttribute (condition : Expr) : List (String × String) :=
  if condition.isYes then [] else [("condition", condition.text)]

def clause (tag text : String) (condition : Expr) : Element :=
  .node tag (conditionAttribute condition) text []

def dependsClause (condition : Expr) : Element := clause "depends" condition.text .yes

def defaultClause (value : Guarded Expr) : Element :=
  clause "default" value.payload.text value.condition

def rangeClause (bounds : Guarded Bounds) : Element :=
  clause "range" (bounds.payload.low.text ++ " " ++ bounds.payload.high.text) bounds.condition

def textClause (tag : String) (text : Guarded String) : Element :=
  clause tag text.payload text.condition

def inheritedClauses (condition : Expr) : List Element :=
  if condition.isYes then [] else [clause "inherited" condition.text .yes]

def group (tag : String) (items : List Element) : List Element :=
  if items.isEmpty then [] else [.group tag items]

def configElement (config : Config) (children : List Element) : Element :=
  .node config.keyword.spelling [("type", config.type.text)] config.name
    (config.prompt.toList.map (textClause "prompt") ++ config.dependsOn.map dependsClause ++
      config.defaults.map defaultClause ++ config.ranges.map rangeClause ++
      config.selects.map (textClause "select") ++ config.env.map (textClause "env") ++
      inheritedClauses config.inherited ++ group "children" children)

def menuElement (title : Guarded String) (children : List Element) : Element :=
  .node "menu" (conditionAttribute title.condition) title.payload (group "children" children)

def choiceElement (choice : Choice) (options : List Element) : Element :=
  .node "choice"
    [("type", choice.type.text), ("mandatory", if choice.isMandatory then "true" else "false")]
    choice.prompt.payload
    (choice.dependsOn.map dependsClause ++ choice.defaults.map defaultClause ++
      group "options" options)

end Dump

open Dump

def Symbol.element : Symbol → Element := Outline.fold {
  entry := configElement
  menu := menuElement
  choice choice options :=
    choiceElement choice (options.map fun option => configElement option.1 option.2) }

namespace Root

def element (root : Root) : Element :=
  .node "root-menu" [] root.label (group "children" (root.children.map Symbol.element))

def tagDump (root : Root) : String := root.element.write 0

end Root

end KernelMenu

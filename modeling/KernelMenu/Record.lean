import KernelMenu.Datum
import KernelMenu.Symbol

/-!
Tokens and trees as plain data, with the field names and the field order of the data formats. The
kind of a symbol is its first field; an option of a choice can only be an entry, and has no kind.
-/

namespace KernelMenu

def Token.datum (token : Token) : Datum :=
  match token.payload? with
  | some payload => .record [(token.name, .text payload)]
  | none => .text token.name

def Expr.kind : Expr → String
  | yes => "Yes"
  | mod => "Mod"
  | no => "No"
  | id _ => "Id"
  | literal _ => "Literal"
  | int _ => "Int"
  | hex _ => "Hex"
  | not _ => "Not"
  | and _ _ => "And"
  | or _ _ => "Or"
  | eq _ _ => "Eq"
  | ne _ _ => "NotEq"

def Expr.datum (expr : Expr) : Datum :=
  let kind := ("kind", Datum.text expr.kind)
  match expr with
  | yes | mod | no => .record [kind]
  | id payload | literal payload | int payload | hex payload =>
      .record [kind, ("value", .text payload)]
  | not operand => .record [kind, ("value", operand.datum)]
  | and left right | or left right | eq left right | ne left right =>
      .record [kind, ("value", .list [left.datum, right.datum])]

namespace Datum

def ofText (name : String) (text : Guarded String) : Datum :=
  .record [(name, .text text.payload), ("condition", text.condition.datum)]

def ofPrompt : Guarded String → Datum := ofText "text"

def ofDefault (value : Guarded Expr) : Datum :=
  .record [("value", value.payload.datum), ("condition", value.condition.datum)]

def ofRange (bounds : Guarded Bounds) : Datum :=
  .record [("low", bounds.payload.low.datum), ("high", bounds.payload.high.datum),
    ("condition", bounds.condition.datum)]

def ofDependency (condition : Expr) : Datum := .record [("condition", condition.datum)]

end Datum

open Datum

def Config.fields (config : Config) (children : List Datum) : List (String × Datum) :=
  [("id", .text config.name),
    ("is_menu_config", .flag config.isMenu),
    ("ty", .text config.type.text),
    ("inherited", config.inherited.datum),
    ("prompt", (config.prompt.map ofPrompt).getD .null),
    ("defaults", .list (config.defaults.map ofDefault)),
    ("selects", .list (config.selects.map (ofText "target"))),
    ("ranges", .list (config.ranges.map ofRange)),
    ("depends_on", .list (config.dependsOn.map ofDependency)),
    ("env", .list (config.env.map (ofText "name"))),
    ("children", .list children)]

def Choice.fields (choice : Choice) (options : List Datum) : List (String × Datum) :=
  [("prompt", ofPrompt choice.prompt),
    ("is_boolean", .flag choice.isBoolean),
    ("is_mandatory", .flag choice.isMandatory),
    ("defaults", .list (choice.defaults.map ofDefault)),
    ("depends_on", .list (choice.dependsOn.map ofDependency)),
    ("options", .list options)]

def Symbol.datum : Symbol → Datum := Outline.fold {
  entry config children :=
    .record (("symbol", .text "Config") :: config.fields children)
  menu title children :=
    .record [("symbol", .text "Menu"), ("prompt", ofPrompt title), ("children", .list children)]
  choice choice options :=
    .record (("symbol", .text "Choice") :: choice.fields
      (options.map fun option => .record (option.1.fields option.2))) }

def Root.datum (root : Root) : Datum :=
  .record [("prompt", ofPrompt root.prompt), ("children", .list (root.children.map Symbol.datum))]

end KernelMenu

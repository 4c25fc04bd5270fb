import KernelMenu.Proofs.TreeDump

/-!
The text of the tag dump, line by line. A node takes the line that it starts, with its clauses in
it, and the nodes below it take lines of their own, one step further in.
-/

namespace KernelMenu

namespace Element

/-- An element on a line of its own. -/
def line (depth : Nat) (element : Element) : String := indent depth ++ write depth element ++ "\n"

theorem write_inner_eq (depth : Nat) (elements : List Element) :
    writeInner depth elements = String.join (elements.map (write depth)) := by
  induction elements with
  | nil => rfl
  | cons element elements induction => rw [writeInner, induction, List.map_cons, String.join_cons]

theorem write_inner_append (depth : Nat) (front back : List Element) :
    writeInner depth (front ++ back) = writeInner depth front ++ writeInner depth back := by
  rw [write_inner_eq, write_inner_eq, write_inner_eq, List.map_append, String.join_append]

theorem write_items_eq (depth : Nat) (elements : List Element) :
    writeItems depth elements = String.join (elements.map (line depth)) := by
  induction elements with
  | nil => rfl
  | cons element elements induction =>
      rw [writeItems, induction, List.map_cons, String.join_cons, line]

end Element

namespace Dump

open Element

/-- A condition as an attribute, unless it always holds. -/
def conditionText (condition : Expr) : String :=
  if condition.isYes then "" else " condition=\"" ++ escape condition.text ++ "\""

def clauseText (tag text : String) (condition : Expr) : String :=
  "<" ++ tag ++ conditionText condition ++ ">" ++ escape text ++ "</" ++ tag ++ ">"

/-- Lines between the tags of a group, which is left out if there are none. -/
def groupText (tag : String) (depth : Nat) (lines : List String) : String :=
  if lines.isEmpty then "" else
    "<" ++ tag ++ ">\n" ++ String.join lines ++ indent depth ++ "</" ++ tag ++ ">"

variable (depth : Nat)

theorem opening_of_condition (tag : String) (condition : Expr) :
    opening tag (conditionAttribute condition) = "<" ++ tag ++ conditionText condition ++ ">" := by
  rw [conditionAttribute, conditionText, opening]
  split
  case isTrue => rfl
  case isFalse =>
    have named : " " ++ "condition" ++ "=\"" = " condition=\"" := by decide
    rw [List.map_cons, List.map_nil, String.join_cons, String.join_nil, String.append_empty]
    dsimp only
    rw [assignment, named]

theorem write_clause (tag text : String) (condition : Expr) :
    (clause tag text condition).write depth = clauseText tag text condition := by
  rw [clause, write, opening_of_condition, writeInner, closing, clauseText]
  simp [String.append_assoc]

theorem write_clauses {Clause : Type} (element : Clause → Element) (clauses : List Clause) :
    writeInner depth (clauses.map element) =
      String.join (clauses.map fun clause => (element clause).write depth) := by
  rw [write_inner_eq, List.map_map]
  rfl

theorem write_inner_group (tag : String) (items : List Element) :
    writeInner depth (group tag items) = groupText tag depth (items.map (line (depth + 1))) := by
  rw [group, groupText, List.isEmpty_map]
  split
  case isTrue => rfl
  case isFalse =>
    rw [writeInner, write, writeInner, write_items_eq, opening, closing]
    simp [String.append_assoc]

theorem write_inherited (condition : Expr) : writeInner depth (inheritedClauses condition) =
    if condition.isYes then "" else clauseText "inherited" condition.text .yes := by
  rw [inheritedClauses]
  split
  case isTrue => rfl
  case isFalse => rw [writeInner, write_clause, writeInner, String.append_empty]

end Dump

namespace Symbol

open Element Dump

variable (depth : Nat)

/-- The name of a type holds nothing that could be taken for markup. -/
theorem opening_of_type (tag : String) (type : ValueType) :
    opening tag [("type", type.text)] = "<" ++ tag ++ " type=\"" ++ type.text ++ "\">" := by
  have typed : assignment "type" type.text = " type=\"" ++ type.text ++ "\"" := by
    cases type <;> decide
  simp [opening, typed, String.append_assoc]

theorem opening_of_choice (type : ValueType) (isMandatory : Bool) :
    opening "choice"
        [("type", type.text), ("mandatory", if isMandatory then "true" else "false")] =
      "<choice type=\"" ++ type.text ++ "\" mandatory=\"" ++
        (if isMandatory then "true" else "false") ++ "\">" := by
  cases type <;> cases isMandatory <;> decide

theorem line_entry (config : Config) (children : List Symbol) :
    (element (.entry config children)).line depth =
      indent depth ++ "<" ++ config.keyword.spelling ++ " type=\"" ++ config.type.text ++ "\">" ++
        escape config.name ++
      String.join (config.prompt.toList.map fun prompt =>
        clauseText "prompt" prompt.payload prompt.condition) ++
      String.join (config.dependsOn.map fun condition =>
        clauseText "depends" condition.text .yes) ++
      String.join (config.defaults.map fun value =>
        clauseText "default" value.payload.text value.condition) ++
      String.join (config.ranges.map fun bounds =>
        clauseText "range" (bounds.payload.low.text ++ " " ++ bounds.payload.high.text)
          bounds.condition) ++
      String.join (config.selects.map fun target =>
        clauseText "select" target.payload target.condition) ++
      String.join (config.env.map fun name => clauseText "env" name.payload name.condition) ++
      (if config.inherited.isYes then "" else clauseText "inherited" config.inherited.text .yes) ++
      groupText "children" depth (children.map fun child => child.element.line (depth + 1)) ++
      "</" ++ config.keyword.spelling ++ ">\n" := by
  rw [element_entry, line, configElement, write]
  simp only [write_inner_append, write_inner_group, write_inherited, write_clauses]
  simp only [textClause, dependsClause, defaultClause, rangeClause, write_clause, opening_of_type,
    closing, List.map_map]
  simp [Function.comp_def, String.append_assoc]

theorem line_menu (title : Guarded String) (children : List Symbol) :
    (element (.menu title children)).line depth =
      indent depth ++ "<menu" ++ conditionText title.condition ++ ">" ++ escape title.payload ++
      groupText "children" depth (children.map fun child => child.element.line (depth + 1)) ++
      "</menu>\n" := by
  rw [element_menu, line, menuElement, write, write_inner_group, opening_of_condition, closing]
  simp [Function.comp_def, String.append_assoc]

theorem line_choice (choice : Choice) (options : List (Config × List Symbol)) :
    (element (.choice choice options)).line depth =
      indent depth ++ "<choice type=\"" ++ choice.type.text ++ "\" mandatory=\"" ++
        (if choice.isMandatory then "true" else "false") ++ "\">" ++
        escape choice.prompt.payload ++
      String.join (choice.dependsOn.map fun condition =>
        clauseText "depends" condition.text .yes) ++
      String.join (choice.defaults.map fun value =>
        clauseText "default" value.payload.text value.condition) ++
      groupText "options" depth (options.map fun option =>
        (element (.entry option.1 option.2)).line (depth + 1)) ++
      "</choice>\n" := by
  rw [element_choice, line, choiceElement, write]
  simp only [write_inner_append, write_inner_group, write_clauses]
  simp only [dependsClause, defaultClause, write_clause, opening_of_choice, closing, List.map_map]
  simp [Function.comp_def, String.append_assoc, element_entry]

end Symbol

theorem Root.tag_dump_eq (root : Root) : root.tagDump =
    "<root-menu>" ++ Element.escape root.label ++
      Dump.groupText "children" 0 (root.children.map fun child => child.element.line 1) ++
      "</root-menu>" := by
  rw [tagDump, element, Element.write, Dump.write_inner_group, Element.opening, Element.closing]
  simp [Function.comp_def, String.append_assoc]

end KernelMenu

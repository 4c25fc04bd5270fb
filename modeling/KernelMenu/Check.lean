import KernelMenu.Symbol

/-!
Checks of a tree: at a place that is reached through entries and menus, a node has to be of a kind
and to have given properties. The first thing that does not hold is reported with its place.
-/

namespace KernelMenu.Check

inductive Container where
  | config | menu
deriving DecidableEq, Repr

inductive RootCheck where
  | prompt (text : String)
  | childCount (count : Nat)

inductive ConfigCheck where
  | name (text : String)
  | type (type : ValueType)
  | isMenu (value : Bool)
  | prompt (text : Option String)
  | promptCondition (condition : Expr)
  | defaults (values : List (Guarded Expr))
  | selects (targets : List String)
  | dependsOn (conditions : List Expr)
  | rangeCount (count : Nat)
  | inherited (condition : Expr)
  | childCount (count : Nat)

inductive MenuCheck where
  | title (text : String)
  | condition (condition : Expr)
  | childCount (count : Nat)

inductive ChoiceCheck where
  | prompt (text : String)
  | isBoolean (value : Bool)
  | isMandatory (value : Bool)
  | options (names : List String)
  | defaultCount (count : Nat)

/-- What is asked of one node: of the root, or of the child with an index at the end of a path. -/
inductive Demand where
  | root (checks : List RootCheck)
  | config (path : List (Nat × Container)) (index : Nat) (checks : List ConfigCheck)
  | menu (path : List (Nat × Container)) (index : Nat) (checks : List MenuCheck)
  | choice (path : List (Nat × Container)) (index : Nat) (checks : List ChoiceCheck)

/-- The indices that lead to a list of children, the last one first. -/
abbrev Place := List Nat

mutual

def Place.children : Place → String
  | [] => "children"
  | index :: place => Place.node index place ++ ".children"

def Place.node (index : Nat) (place : Place) : String :=
  Place.children place ++ "[" ++ toString index ++ "]"

end

inductive Violation where
  | rootPrompt
  | rootChildCount (wanted : Nat) (children : List Symbol)
  | outOfBounds (place : Place) (index count : Nat)
  | wrongKind (node : String) (wanted : String) (found : Symbol)
  | noPrompt (node : String)
  | mismatch (node aspect : String)
  | childCount (node : String) (wanted : Nat) (children : List Symbol)

def listing (symbols : List Symbol) : String :=
  ", ".intercalate (symbols.map fun symbol =>
    Symbol.kind symbol ++ "(" ++ Symbol.label symbol ++ ")")

def Violation.message : Violation → String
  | rootPrompt => "root: prompt mismatch"
  | rootChildCount wanted children =>
      "Expected " ++ toString wanted ++ " symbols, found " ++ toString children.length ++ ": [" ++
        listing children ++ "]"
  | outOfBounds place index count =>
      Place.children place ++ ": child index " ++ toString index ++ " out of bounds (" ++
        toString count ++ " children)"
  | wrongKind node wanted found =>
      node ++ ": Expected " ++ wanted ++ ", found " ++ Symbol.kind found ++ " '" ++
        Symbol.label found ++ "'"
  | noPrompt node => node ++ ": expected a prompt"
  | mismatch node aspect => node ++ ": " ++ aspect ++ " mismatch"
  | childCount node wanted children =>
      node ++ ": Expected " ++ toString wanted ++ " children, found [" ++ listing children ++ "]"

def demand (holds : Bool) (violation : Violation) : Except Violation Unit :=
  if holds then .ok () else .error violation

def RootCheck.run (root : Root) : RootCheck → Except Violation Unit
  | prompt text => demand (root.prompt.payload == text) .rootPrompt
  | childCount count =>
      demand (root.children.length == count) (.rootChildCount count root.children)

def ConfigCheck.run (node : String) (config : Config) (children : List Symbol) :
    ConfigCheck → Except Violation Unit
  | name text => demand (config.name == text) (.mismatch node "id")
  | .type wanted => demand (config.type = wanted) (.mismatch node "type")
  | isMenu value => demand (config.isMenu == value) (.mismatch node "is_menu_config")
  | prompt text =>
      demand (config.prompt.map Guarded.payload == text) (.mismatch node "prompt")
  | promptCondition condition =>
      match config.prompt with
      | none => .error (.noPrompt node)
      | some found =>
          demand (found.condition = condition) (.mismatch node "prompt condition")
  | defaults values => demand (config.defaults = values) (.mismatch node "defaults")
  | selects targets =>
      demand (config.selects.map Guarded.payload == targets) (.mismatch node "selects")
  | dependsOn conditions => demand (config.dependsOn = conditions) (.mismatch node "depends_on")
  | rangeCount count => demand (config.ranges.length == count) (.mismatch node "range count")
  | inherited condition => demand (config.inherited = condition) (.mismatch node "inherited")
  | childCount count => demand (children.length == count) (.childCount node count children)

def MenuCheck.run (node : String) (title : Guarded String) (children : List Symbol) :
    MenuCheck → Except Violation Unit
  | .title text => demand (title.payload == text) (.mismatch node "title")
  | .condition wanted => demand (title.condition = wanted) (.mismatch node "condition")
  | childCount count => demand (children.length == count) (.childCount node count children)

def ChoiceCheck.run (node : String) (choice : Choice) (options : List (Config × List Symbol)) :
    ChoiceCheck → Except Violation Unit
  | prompt text => demand (choice.prompt.payload == text) (.mismatch node "prompt")
  | isBoolean value => demand (choice.isBoolean == value) (.mismatch node "is_boolean")
  | isMandatory value => demand (choice.isMandatory == value) (.mismatch node "is_mandatory")
  | .options names => demand (options.map (·.1.name) == names) (.mismatch node "options")
  | defaultCount count =>
      demand (choice.defaults.length == count) (.mismatch node "default count")

def child (place : Place) (children : List Symbol) (index : Nat) : Except Violation Symbol :=
  match children[index]? with
  | some symbol => .ok symbol
  | none => .error (.outOfBounds place index children.length)

def descend (place : Place) (children : List Symbol) :
    List (Nat × Container) → Except Violation (Place × List Symbol)
  | [] => .ok (place, children)
  | (index, container) :: path => do
      match container, ← child place children index with
      | .config, .entry _ below => descend (index :: place) below path
      | .menu, .menu _ below => descend (index :: place) below path
      | .config, other => .error (.wrongKind (Place.node index place) "Config" other)
      | .menu, other => .error (.wrongKind (Place.node index place) "Menu" other)

def Demand.run (root : Root) : Demand → Except Violation Unit
  | .root checks => checks.forM fun check => check.run root
  | config path index checks => do
      let (place, children) ← descend [] root.children path
      let node := Place.node index place
      match ← child place children index with
      | .entry head below => checks.forM fun check => check.run node head below
      | other => .error (.wrongKind node "Config" other)
  | menu path index checks => do
      let (place, children) ← descend [] root.children path
      let node := Place.node index place
      match ← child place children index with
      | .menu title below => checks.forM fun check => check.run node title below
      | other => .error (.wrongKind node "Menu" other)
  | choice path index checks => do
      let (place, children) ← descend [] root.children path
      let node := Place.node index place
      match ← child place children index with
      | .choice head options => checks.forM fun check => check.run node head options
      | other => .error (.wrongKind node "Choice" other)

end KernelMenu.Check

import KernelMenu.Outline
import KernelMenu.Property

/-!
The tree of a configuration menu: entries with a value type and typed clauses, menus with a title,
and choices among entries, all below one root.
-/

namespace KernelMenu

/-- An entry without what stands below it. Its dependencies are independent of each other; all of
them have to hold. -/
structure Config where
  name : String
  isMenu : Bool
  type : ValueType
  inherited : Expr
  prompt : Option (Guarded String)
  defaults : List (Guarded Expr)
  selects : List (Guarded String)
  ranges : List (Guarded Bounds)
  dependsOn : List Expr
  env : List (Guarded String)
deriving DecidableEq, Repr

structure Choice where
  prompt : Guarded String
  isBoolean : Bool
  isMandatory : Bool
  defaults : List (Guarded Expr)
  dependsOn : List Expr
deriving DecidableEq, Repr

/-- The head of a menu is its title, under the condition that the menu depends on. -/
abbrev Symbol := Outline Config (Guarded String) Choice

structure Root where
  prompt : Guarded String
  children : List Symbol
deriving DecidableEq, Repr

namespace Config

def isPlain (config : Config) : Bool :=
  config.inherited.isYes && config.prompt.isNone && config.defaults.isEmpty &&
    config.selects.isEmpty && config.ranges.isEmpty && config.dependsOn.isEmpty &&
    config.env.isEmpty

def isBare {Child : Type} (config : Config) (children : List Child) : Bool :=
  config.isPlain && children.isEmpty

def kind (config : Config) : String := if config.isMenu then "MenuConfig" else "Config"

def keyword (config : Config) : Keyword := if config.isMenu then .menuconfig else .config

def label (config : Config) : String :=
  let header := config.name ++ " " ++ config.type.text
  match config.prompt with
  | some prompt => header ++ " '" ++ prompt.payload ++ "'"
  | none => header

end Config

namespace Choice

def type (choice : Choice) : ValueType := if choice.isBoolean then .boolean else .tristate

end Choice

namespace Symbol

def kind : Symbol → String
  | .entry config _ => config.kind
  | .menu _ _ => "Menu"
  | .choice _ _ => "Choice"

def label : Symbol → String
  | .entry config _ => config.label
  | .menu title _ => title.payload
  | .choice choice _ => choice.prompt.payload

def summary : Symbol → String
  | .entry config children => describe config.kind config.name children.length "children"
  | .menu title children => describe "Menu" title.payload children.length "children"
  | .choice choice options => describe "Choice" choice.prompt.payload options.length "options"
where
  describe (kind name : String) (count : Nat) (noun : String) : String :=
    kind ++ "('" ++ name ++ "', " ++ toString count ++ " " ++ noun ++ ")"

end Symbol

namespace Root

def title : String := "Linux Kernel Configuration"

def ofChildren (children : List Symbol) : Root := ⟨⟨title, .yes⟩, children⟩

def kind : String := "RootMenu"

def label (root : Root) : String := root.prompt.payload

def size (root : Root) : Nat := (root.children.map Outline.size).foldr Nat.add 0

end Root

end KernelMenu

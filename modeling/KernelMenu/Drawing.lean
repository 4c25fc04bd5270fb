import KernelMenu.Symbol

/-!
The drawing of a tree: one line for each node, with branches that show where it hangs.
-/

namespace KernelMenu

namespace Drawing

def labelWidth : Nat := 40

def shortened (label : String) : String :=
  if label.length ≤ labelWidth then label
  else String.ofList (label.toList.take labelWidth) ++ "..."

def nodeLine (kind label : String) : String := kind ++ ": " ++ shortened label

/-- Puts one text before the first line of a drawing and another before all others. -/
def hook (first others : String) : List String → List String
  | [] => []
  | line :: lines => (first ++ line) :: lines.map (others ++ ·)

/-- Hangs drawings below each other on one stem, which ends at the last of them. -/
def hang : List (List String) → List String
  | [] => []
  | [drawing] => hook "└─ " "  " drawing
  | drawing :: drawings => hook "├─ " "│ " drawing ++ hang drawings

def configLines (config : Config) (children : List (List String)) : List String :=
  nodeLine config.kind config.label :: hang children

end Drawing

open Drawing

def Symbol.drawing : Symbol → List String := Outline.fold {
  entry := configLines
  menu title children := nodeLine "Menu" title.payload :: hang children
  choice choice options :=
    nodeLine "Choice" choice.prompt.payload ::
      hang (options.map fun option => configLines option.1 option.2) }

namespace Root

def drawingLines (root : Root) : List String :=
  (kind ++ ": " ++ root.label) :: hang (root.children.map Symbol.drawing)

def drawing (root : Root) : String := String.join (root.drawingLines.map (· ++ "\n"))

end Root

end KernelMenu

/-!
Elements with attributes and text. What stands inside an element follows its text on the same
line; only a group puts each of its elements on a line of its own.
-/

namespace KernelMenu

inductive Element where
  | node (tag : String) (attributes : List (String × String)) (text : String)
      (inner : List Element)
  | group (tag : String) (items : List Element)
deriving Repr

namespace Element

/-- The five characters that could be taken for markup are written as entities. -/
def escapeChar : Char → List Char
  | '&' => "&amp;".toList
  | '<' => "&lt;".toList
  | '>' => "&gt;".toList
  | '"' => "&quot;".toList
  | '\'' => "&apos;".toList
  | char => [char]

def escape (text : String) : String := String.ofList (text.toList.flatMap escapeChar)

def assignment (name value : String) : String := " " ++ name ++ "=\"" ++ escape value ++ "\""

def opening (tag : String) (attributes : List (String × String)) : String :=
  "<" ++ tag ++ String.join (attributes.map fun (name, value) => assignment name value) ++ ">"

def closing (tag : String) : String := "</" ++ tag ++ ">"

def indent (depth : Nat) : String := String.ofList (List.replicate (2 * depth) ' ')

mutual

/-- The text of an element that starts in a line indented by `depth` steps. -/
def write (depth : Nat) : Element → String
  | .node tag attributes text inner =>
      opening tag attributes ++ escape text ++ writeInner depth inner ++ closing tag
  | .group tag items =>
      opening tag [] ++ "\n" ++ writeItems (depth + 1) items ++ indent depth ++ closing tag

def writeInner (depth : Nat) : List Element → String
  | [] => ""
  | element :: elements => write depth element ++ writeInner depth elements

def writeItems (depth : Nat) : List Element → String
  | [] => ""
  | element :: elements =>
      indent depth ++ write depth element ++ "\n" ++ writeItems depth elements

end

end Element

end KernelMenu

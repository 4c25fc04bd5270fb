/-!
The vocabulary of the extract format: nineteen keywords, eleven marks, and four kinds of tokens
that carry their own text. `Token.spelling` is the text a token has in a source, `Token.name` the
name of its kind in a token listing.
-/

namespace KernelMenu

inductive Keyword where
  | config | menuconfig | menu | choice | guard | optional
  | prompt | depends | on | default | range | select | env | inherited
  | boolean | tristate | integer | hex | string
deriving DecidableEq, Repr

namespace Keyword

def all : List Keyword :=
  [config, menuconfig, menu, choice, guard, optional, prompt, depends, on, default, range, select,
    env, inherited, boolean, tristate, integer, hex, string]

def spelling : Keyword → String
  | config => "config"
  | menuconfig => "menuconfig"
  | menu => "menu"
  | choice => "choice"
  | guard => "if"
  | optional => "optional"
  | prompt => "prompt"
  | depends => "depends"
  | on => "on"
  | default => "default"
  | range => "range"
  | select => "select"
  | env => "env"
  | inherited => "inherited"
  | boolean => "boolean"
  | tristate => "tristate"
  | integer => "integer"
  | hex => "hex"
  | string => "string"

def name : Keyword → String
  | config => "Config"
  | menuconfig => "MenuConfig"
  | menu => "Menu"
  | choice => "Choice"
  | guard => "If"
  | optional => "Optional"
  | prompt => "Prompt"
  | depends => "Depends"
  | on => "On"
  | default => "Default"
  | range => "Range"
  | select => "Select"
  | env => "Env"
  | inherited => "Inherited"
  | boolean => "Boolean"
  | tristate => "Tristate"
  | integer => "Integer"
  | hex => "Hex"
  | string => "String"

def ofWord? (word : List Char) : Option Keyword :=
  all.find? fun keyword => keyword.spelling.toList == word

theorem spelling_of_word {word : List Char} {keyword : Keyword}
    (found : ofWord? word = some keyword) : keyword.spelling.toList = word := by
  simpa using List.find?_some found

theorem of_word_spelling (keyword : Keyword) :
    ofWord? keyword.spelling.toList = some keyword := by
  cases keyword <;> decide

theorem spelling_injective {left right : Keyword} (same : left.spelling = right.spelling) :
    left = right := by
  have found := of_word_spelling left
  rw [same, of_word_spelling] at found
  exact (Option.some.inj found).symm

end Keyword

inductive Mark where
  | openBrace | closeBrace | openBracket | closeBracket | openParen | closeParen
  | and | or | not | eq | ne
deriving DecidableEq, Repr

namespace Mark

def spelling : Mark → String
  | openBrace => "\x7b"
  | closeBrace => "\x7d"
  | openBracket => "["
  | closeBracket => "]"
  | openParen => "("
  | closeParen => ")"
  | and => "&&"
  | or => "||"
  | not => "!"
  | eq => "="
  | ne => "!="

def name : Mark → String
  | openBrace => "LBrace"
  | closeBrace => "RBrace"
  | openBracket => "LBracket"
  | closeBracket => "RBracket"
  | openParen => "LParen"
  | closeParen => "RParen"
  | and => "And"
  | or => "Or"
  | not => "Not"
  | eq => "Eq"
  | ne => "NotEq"

theorem spelling_injective {left right : Mark} (same : left.spelling = right.spelling) :
    left = right := by
  cases left <;> cases right <;> first | rfl | exact absurd same (by decide)

end Mark

/-- A `text` token holds what stands between its quotes, escape pairs untouched; the other
payloads are the whole spelling. -/
inductive Token where
  | keyword (word : Keyword)
  | mark (sign : Mark)
  | text (body : String)
  | hex (digits : String)
  | int (digits : String)
  | ident (name : String)
deriving DecidableEq, Repr

namespace Token

def spelling : Token → String
  | .keyword word => word.spelling
  | .mark sign => sign.spelling
  | .text body => "\"" ++ body ++ "\""
  | .hex digits => digits
  | .int digits => digits
  | .ident name => name

def name : Token → String
  | .keyword word => word.name
  | .mark sign => sign.name
  | .text _ => "StrLit"
  | .hex _ => "HexLit"
  | .int _ => "IntLit"
  | .ident _ => "Ident"

def payload? : Token → Option String
  | .keyword _ | .mark _ => none
  | .text body => some body
  | .hex digits => some digits
  | .int digits => some digits
  | .ident name => some name

end Token

end KernelMenu

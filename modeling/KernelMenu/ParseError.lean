import KernelMenu.Grammar.Rule
import KernelMenu.Lexeme
import KernelMenu.Position

/-!
What can be wrong with a source, and how it is told: text in which no token starts, a token the
grammar does not allow where it stands, or a choice without a prompt.
-/

namespace KernelMenu

open Grammar

inductive ParseFault where
  | stray (text : String)
  | unexpected (found : Option Token) (wants : List Want)
  | promptlessChoice
deriving DecidableEq, Repr

structure ParseError where
  position : Position
  fault : ParseFault
deriving DecidableEq, Repr

/-- The name of a wanted token or of the end; a class of tokens has none of its own. -/
def Grammar.Want.name? : Want → Option String
  | .token wanted => some ("'" ++ wanted.spelling ++ "'")
  | .endOfInput => some "end of input"
  | .oneOf _ => none

def Grammar.Want.class? : Want → Option TokenClass
  | .oneOf tokens => some tokens
  | _ => none

def Grammar.Want.insertName (name : String) : List String → List String
  | [] => [name]
  | other :: names =>
      if name < other then name :: other :: names
      else if name = other then other :: names
      else other :: insertName name names

/-- The names of classes of tokens, of which only a single one is named. -/
def Grammar.Want.classNames : List TokenClass → List String
  | [] => []
  | tokens :: others => if others.all (· = tokens) then [tokens.label] else []

/-- The names of all that was wanted, in their order and without repetition. -/
def Grammar.Want.names (wants : List Want) : List String :=
  (wants.filterMap Want.name? ++ classNames (wants.filterMap Want.class?)).foldr insertName []

namespace ParseFault

def expected : ParseFault → List String
  | unexpected _ wants => Want.names wants
  | _ => []

/-- The text at which the error stands; none at the end of the input. -/
def found : ParseFault → Option String
  | stray text => some text
  | unexpected token _ => token.map Token.spelling
  | promptlessChoice => none

def detail : ParseFault → String
  | stray text => LexicalError.message ⟨text, 0⟩
  | promptlessChoice => "choice requires a prompt"
  | unexpected token wants =>
      let found := match token with
        | some token => "'" ++ token.spelling ++ "'"
        | none => "end of input"
      match Want.names wants with
      | [] => "unexpected " ++ found
      | names => "expected " ++ " or ".intercalate names ++ ", found " ++ found

end ParseFault

namespace ParseError

def expected (error : ParseError) : List String := error.fault.expected

def found (error : ParseError) : Option String := error.fault.found

def detail (error : ParseError) : String := error.fault.detail

def message (error : ParseError) : String := error.position.text ++ ": " ++ error.detail

def expects (error : ParseError) (name : String) : Bool := error.expected.contains name

def isAtEnd (error : ParseError) : Bool := error.found.isNone && !error.expected.isEmpty

end ParseError

end KernelMenu

import KernelMenu.Grammar.Symbol
import KernelMenu.ParseError

/-!
From a source to its tree. A lexical error anywhere counts before an error of the grammar, and an
error of the grammar before a choice without a prompt.
-/

namespace KernelMenu

open Grammar

namespace Lexeme

/-- Where the lexeme of a number starts; past the last one, where the source ends. -/
def startOf (source : String) (lexemes : List Lexeme) (index : Nat) : Nat :=
  match lexemes[index]? with
  | some lexeme => lexeme.start
  | none => source.utf8ByteSize

end Lexeme

namespace ParseError

def ofLexical (source : String) (error : LexicalError) : ParseError :=
  ⟨Position.ofOffset source error.start, .stray error.text⟩

def ofFailure (source : String) (lexemes : List Lexeme) (failure : Failure) : ParseError :=
  ⟨Position.ofOffset source (Lexeme.startOf source lexemes failure.place),
    .unexpected (lexemes[failure.place]?.map Lexeme.token) failure.wants⟩

def ofPromptlessChoice (source : String) (lexemes : List Lexeme) (number : Nat) : ParseError :=
  let choices := lexemes.filter fun lexeme => lexeme.token = .keyword .choice
  ⟨Position.ofOffset source (Lexeme.startOf source choices number), .promptlessChoice⟩

end ParseError

/-- The symbols of a draft, or the number of the first choice that has no prompt. -/
def Draft.symbols (drafts : List Draft) : Except Nat (List Symbol) :=
  match drafts.mapM Draft.symbol? with
  | some symbols => .ok symbols
  | none => .error ((Draft.promptlessChoice? drafts).getD 0)

def Root.parse (source : String) : Except ParseError Root :=
  match Lexeme.ofSource source with
  | .error error => .error (.ofLexical source error)
  | .ok lexemes =>
      match Grammar.source (lexemes.map Lexeme.token) with
      | .fail failure => .error (.ofFailure source lexemes failure)
      | .ok drafts _ _ =>
          match Draft.symbols drafts with
          | .error number => .error (.ofPromptlessChoice source lexemes number)
          | .ok symbols => .ok (.ofChildren symbols)

end KernelMenu

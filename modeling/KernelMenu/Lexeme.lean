import KernelMenu.Token

/-!
Cutting a source into lexemes: tokens with the byte offsets where they start and stop. The longest
token wins; a word is the keyword it spells, else a hexadecimal or decimal number if it has that
shape, else an identifier. `scan_spelling` says that a token's spelling is the text it was read
from, which is also why the cutting ends.
-/

namespace KernelMenu

/-- The only characters that may stand between tokens. -/
def isBlank (char : Char) : Bool :=
  char = ' ' || char = '\t' || char = '\r' || char = '\n' || char = '\x0c'

/-- ASCII only, as are all letters and digits of the format. -/
def isWordChar (char : Char) : Bool := char.isAlphanum || char = '_'

def isHexDigit (char : Char) : Bool :=
  char.isDigit || ('a' ≤ char && char ≤ 'f') || ('A' ≤ char && char ≤ 'F')

def isTextChar (char : Char) : Bool := char ≠ '"' && char ≠ '\\' && ' ' ≤ char

def isEscapable (char : Char) : Bool :=
  char = '\\' || char = '/' || char = 'b' || char = 'f' || char = 'n' || char = 'r' ||
    char = 't' || char = '"'

def isHexWord : List Char → Bool
  | '0' :: mark :: digits => (mark = 'x' || mark = 'X') && !digits.isEmpty && digits.all isHexDigit
  | _ => false

def isDecimalWord (word : List Char) : Bool := !word.isEmpty && word.all Char.isDigit

def Token.ofWord (word : List Char) : Token :=
  match Keyword.ofWord? word with
  | some reserved => .keyword reserved
  | none =>
      if isHexWord word then .hex (String.ofList word)
      else if isDecimalWord word then .int (String.ofList word)
      else .ident (String.ofList word)

theorem Token.spelling_of_word (word : List Char) :
    (Token.ofWord word).spelling.toList = word := by
  unfold Token.ofWord
  split
  case h_1 reserved found => exact Keyword.spelling_of_word found
  case h_2 =>
    split
    · simp [Token.spelling]
    · split <;> simp [Token.spelling]

/-- Splits off the longest run of text units: a plain character, or a backslash with a character
that may follow it. -/
def textRun : List Char → List Char × List Char
  | [] => ([], [])
  | '\\' :: char :: rest =>
      if isEscapable char then
        let (run, after) := textRun rest
        ('\\' :: char :: run, after)
      else ([], '\\' :: char :: rest)
  | char :: rest =>
      if isTextChar char then
        let (run, after) := textRun rest
        (char :: run, after)
      else ([], char :: rest)

theorem text_run_append (input : List Char) : (textRun input).1 ++ (textRun input).2 = input := by
  fun_induction textRun input <;> simp_all

/-- The token a source starts with, and what follows it. -/
def Token.scan? : List Char → Option (Token × List Char)
  | '\x7b' :: rest => some (.mark .openBrace, rest)
  | '\x7d' :: rest => some (.mark .closeBrace, rest)
  | '[' :: rest => some (.mark .openBracket, rest)
  | ']' :: rest => some (.mark .closeBracket, rest)
  | '(' :: rest => some (.mark .openParen, rest)
  | ')' :: rest => some (.mark .closeParen, rest)
  | '&' :: '&' :: rest => some (.mark .and, rest)
  | '|' :: '|' :: rest => some (.mark .or, rest)
  | '!' :: '=' :: rest => some (.mark .ne, rest)
  | '!' :: rest => some (.mark .not, rest)
  | '=' :: rest => some (.mark .eq, rest)
  | '"' :: rest =>
      match textRun rest with
      | (body, '"' :: after) => some (.text (String.ofList body), after)
      | _ => none
  | '-' :: rest =>
      let digits := rest.takeWhile Char.isDigit
      if digits.isEmpty then none
      else some (.int (String.ofList ('-' :: digits)), rest.dropWhile Char.isDigit)
  | input =>
      let word := input.takeWhile isWordChar
      if word.isEmpty then none else some (.ofWord word, input.dropWhile isWordChar)

/-- The text that an error reports where no token starts: one character, or a quote with the
text units after it. -/
def strayText : List Char → List Char
  | [] => []
  | '"' :: rest => '"' :: (textRun rest).1
  | char :: _ => [char]

theorem Token.scan_spelling {input rest : List Char} {token : Token}
    (found : Token.scan? input = some (token, rest)) :
    token.spelling.toList ++ rest = input := by
  unfold Token.scan? at found
  split at found
  case h_12 tail =>
    split at found
    case h_1 body after split =>
      obtain ⟨rfl, rfl⟩ := by simpa using found
      have whole := text_run_append tail
      rw [split] at whole
      simp [Token.spelling, ← whole]
    case h_2 => simp at found
  case h_13 tail =>
    dsimp only at found
    split at found
    · simp at found
    · obtain ⟨rfl, rfl⟩ := by simpa using found
      simp [Token.spelling]
  case h_14 =>
    dsimp only at found
    split at found
    · simp at found
    · obtain ⟨rfl, rfl⟩ := by simpa using found
      simp [Token.spelling_of_word]
  all_goals
    obtain ⟨rfl, rfl⟩ := by simpa using found
    rfl

theorem Token.scan_spelling_ne_nil {input rest : List Char} {token : Token}
    (found : Token.scan? input = some (token, rest)) : token.spelling.toList ≠ [] := by
  unfold Token.scan? at found
  split at found
  case h_12 =>
    split at found
    · obtain ⟨rfl, -⟩ := by simpa using found
      simp [Token.spelling]
    · simp at found
  case h_13 =>
    dsimp only at found
    split at found
    · simp at found
    · obtain ⟨rfl, -⟩ := by simpa using found
      simp [Token.spelling]
  case h_14 =>
    dsimp only at found
    split at found
    · simp at found
    case isFalse filled =>
      obtain ⟨rfl, -⟩ := by simpa using found
      rw [Token.spelling_of_word]
      simpa using filled
  all_goals
    obtain ⟨rfl, -⟩ := by simpa using found
    decide

theorem Token.scan_length_lt {input rest : List Char} {token : Token}
    (found : Token.scan? input = some (token, rest)) : rest.length < input.length := by
  have whole := congrArg List.length (Token.scan_spelling found)
  have filled := List.length_pos_iff.2 (Token.scan_spelling_ne_nil found)
  rw [List.length_append] at whole
  omega

structure Lexeme where
  token : Token
  start : Nat
  stop : Nat
deriving DecidableEq, Repr

structure LexicalError where
  text : String
  start : Nat
deriving DecidableEq, Repr

namespace LexicalError

def stop (error : LexicalError) : Nat := error.start + error.text.utf8ByteSize

def message (error : LexicalError) : String :=
  "unexpected character sequence '" ++ error.text ++ "'"

end LexicalError

/-- The lexemes of a source that begins at the byte `offset`. -/
def Lexeme.scanFrom (offset : Nat) : List Char → Except LexicalError (List Lexeme)
  | [] => .ok []
  | char :: rest =>
      if isBlank char then scanFrom (offset + 1) rest
      else
        match _ : Token.scan? (char :: rest) with
        | none => .error ⟨String.ofList (strayText (char :: rest)), offset⟩
        | some (token, after) =>
            let stop := offset + token.spelling.utf8ByteSize
            match scanFrom stop after with
            | .ok lexemes => .ok (⟨token, offset, stop⟩ :: lexemes)
            | .error error => .error error
termination_by input => input.length
decreasing_by
  · exact Nat.lt_succ_self _
  · exact Token.scan_length_lt ‹_›

def Lexeme.ofSource (source : String) : Except LexicalError (List Lexeme) :=
  Lexeme.scanFrom 0 source.toList

def Token.ofSource (source : String) : Except LexicalError (List Token) :=
  match Lexeme.ofSource source with
  | .ok lexemes => .ok (lexemes.map Lexeme.token)
  | .error error => .error error

end KernelMenu

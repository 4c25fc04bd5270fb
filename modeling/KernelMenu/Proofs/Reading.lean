import KernelMenu.Proofs.Phrase

/-!
What it means that a rule reads a language. The rule takes the longest word that the tokens begin
with, and remembers how far the tokens agree with any word at all and what could stand next there.
A guard at the end of a word is the one place where a rule looks beyond the word: a guard before a
brace is no guard. So a word that ends behind a guard does not count in front of a brace, and what
is wanted behind a guard leaves the brace out.
-/

namespace KernelMenu

/-- Tokens that an error names by their class are of one kind, every other token is of its own. -/
inductive Kind where
  | keyword (word : Keyword)
  | mark (sign : Mark)
  | classed
deriving DecidableEq, Repr

def Keyword.isType (keyword : Keyword) : Bool :=
  (ValueType.all.map ValueType.keyword).contains keyword

def Token.kind : Token → Kind
  | .keyword word => if word.isType then .classed else .keyword word
  | .mark sign => .mark sign
  | .text _ | .hex _ | .int _ | .ident _ => .classed

theorem Token.eq_mark_of_kind {token : Token} {sign : Mark} (same : token.kind = .mark sign) :
    token = .mark sign := by
  cases token with
  | keyword word =>
      simp only [kind] at same
      split at same <;> exact nomatch same
  | mark other => rw [Kind.mark.inj same]
  | text | hex | int | ident => exact nomatch same

theorem Token.eq_keyword_of_kind {token : Token} {word : Keyword}
    (same : token.kind = .keyword word) : token = .keyword word := by
  cases token with
  | keyword other =>
      simp only [kind] at same
      split at same
      · exact nomatch same
      · rw [Kind.keyword.inj same]
  | mark | text | hex | int | ident => exact nomatch same

end KernelMenu

namespace KernelMenu.Grammar

/-- The tokens of a class. -/
def TokenClass.Has : TokenClass → Token → Prop
  | .identifier, token => ∃ name, token = .ident name
  | .text, token => ∃ body, token = .text body
  | .type, token => ∃ type : ValueType, token = .keyword type.keyword
  | .value, token => (∃ name, token = .ident name) ∨ (∃ digits, token = .int digits) ∨
      (∃ digits, token = .hex digits) ∨ ∃ body, token = .text body

/-- What was looked for covers a token. -/
def Want.Admits : Want → Token → Prop
  | .token wanted, found => found = wanted
  | .endOfInput, _ => False
  | .oneOf tokens, found => tokens.Has found

/-- The tokens end with a whole guard right behind the payload of a property. -/
def BehindGuard (word : List Token) : Prop :=
  ∃ before name payload guard condition, Phrase.Payload name payload ∧
    Phrase.Guard guard condition ∧ word = before ++ .keyword name :: payload ++ guard

/-- A guard ends here, and a brace follows. -/
def Blocked (word rest : List Token) : Prop :=
  BehindGuard word ∧ rest.head? = some (.mark .openBrace)

/-- A token that may come after `word`, as far as an error in front of `rest` can tell. -/
def Language.Sought {Value : Type} (language : Language Value) (word rest : List Token)
    (token : Token) : Prop :=
  language.Viable (word ++ [token]) ∧
    (BehindGuard word → token ≠ .mark .openBrace ∧ rest.head? ≠ some (.mark .openBrace))

/-- What was looked for between `word` and `rest` is what may come there. -/
structure Listed {Value : Type} (language : Language Value) (word rest : List Token)
    (wants : List Want) : Prop where
  tokens : ∀ token, (∃ want ∈ wants, want.Admits token) ↔ language.Sought word rest token
  ending : .endOfInput ∈ wants ↔ Blocked word rest
  fixed : ∀ token, .token token ∈ wants → token.kind ≠ .classed
  classes : ∀ left right, .oneOf left ∈ wants → .oneOf right ∈ wants → left = right

/-- The failure stands where the tokens stop to begin a word of the language. -/
def Furthest {Value : Type} (language : Language Value) (tokens : List Token)
    (failure : Failure) : Prop :=
  ∃ word rest, tokens = word ++ rest ∧ failure.place = word.length ∧ language.Viable word ∧
    (∀ token after, rest = token :: after → ¬ language.Viable (word ++ [token])) ∧
    Listed language word rest failure.wants

/-- The failure that is remembered behind the `used` tokens of a success. -/
def Failure.reach (used : Nat) : Option Failure → Failure
  | none => ⟨used, []⟩
  | some missed => Failure.further ⟨used, []⟩ missed

/-- The outcome of reading a word of the language from the front of the tokens. -/
inductive Reads {Value : Type} (language : Language Value) (tokens : List Token) :
    Outcome Value → Prop
  | ok {word rest : List Token} {value : Value} {missed : Option Failure}
      (split : tokens = word ++ rest) (holds : language word value)
      (free : ¬ Blocked word rest)
      (longest : ∀ word' rest' value', tokens = word' ++ rest' → language word' value' →
        word'.length ≤ word.length ∨ Blocked word' rest')
      (only : ∀ value', language word value' → value' = value)
      (furthest : Furthest language tokens (Failure.reach word.length missed)) :
      Reads language tokens (.ok value word.length missed)
  | fail {failure : Failure}
      (none : ∀ word rest value, tokens = word ++ rest → ¬ language word value)
      (furthest : Furthest language tokens failure) : Reads language tokens (.fail failure)

end KernelMenu.Grammar

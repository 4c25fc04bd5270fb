import KernelMenu.Proofs.ChoiceError
import KernelMenu.Proofs.Layout
import KernelMenu.Proofs.SourceWrapping

/-!
What is read does not depend on the layout. Sources with the same tokens give the same tree, or
errors that say the same and stand at tokens of the same number.
-/

namespace KernelMenu

open Grammar Phrase

namespace Layout

/-- A new layout has the tokens of the old one. -/
theorem Relaid.tokens {layout layout' : Layout} (relaid : Relaid layout layout')
    (offset offset' : Nat) : (layout'.lexemesFrom offset').map Lexeme.token =
      (layout.lexemesFrom offset).map Lexeme.token := by
  induction relaid generalizing offset offset' with
  | last => rfl
  | word token _ _ induction => exact congrArg (token :: ·) (induction _ _)

theorem of_source_iff (layout : Layout) :
    Lexeme.ofSource layout.source = .ok layout.lexemes ↔ layout.Readable := by
  rw [Lexeme.ofSource, source, String.toList_ofList, lexemes]
  exact ⟨readable_of_scan, fun readable => readable.scan 0⟩

end Layout

/-- Where the error stands is told by the number of a token. -/
structure ParseError.PlacedAt (error : ParseError) (source : String) (lexemes : List Lexeme)
    (index : Nat) : Prop where
  offset : error.position.offset = Lexeme.startOf source lexemes index
  within : index ≤ lexemes.length
  atEnd : index = lexemes.length ↔ error.isAtEnd = true

/-- What is rejected is given up at one of the tokens or behind them, and there something is
wanted. -/
theorem failure_of_rejected {words : List Token} (rejected : ¬ Accepts words) : ∃ failure,
    Grammar.source words = .fail failure ∧ failure.place ≤ words.length ∧
      (failure.place = words.length → Want.names failure.wants ≠ []) := by
  have result := source_read words
  generalize outcome : Grammar.source words = given at result
  cases result with
  | accepted => exact absurd ⟨_, _, _, outcome⟩ rejected
  | @rejected failure word rest none split place viable stuck wanted =>
      have length := congrArg List.length split
      rw [List.length_append] at length
      refine ⟨failure, rfl, by omega, ?_⟩
      intro atEnd
      obtain rfl : rest = [] := List.length_eq_zero_iff.1 (by omega)
      rw [List.append_nil] at split
      rw [split] at none
      exact names_ne_nil wanted viable none

namespace Root

variable {source source' : String} {lexemes lexemes' : List Lexeme}

theorem failure_placed_at (scanned : Lexeme.ofSource source = .ok lexemes) {failure : Failure}
    (within : failure.place ≤ lexemes.length)
    (wants : failure.place = lexemes.length → Want.names failure.wants ≠ []) :
    (ParseError.ofFailure source lexemes failure).PlacedAt source lexemes failure.place := by
  rcases failure_stands_at scanned within with ⟨lexeme, found, told, offset⟩ | ⟨atEnd, told, offset⟩
  · have inside : failure.place < lexemes.length := (List.getElem?_eq_some_iff.1 found).1
    refine ⟨?_, within, ?_⟩
    · rw [offset, Lexeme.startOf, found]
    · rw [ParseError.isAtEnd, told]
      exact iff_of_false (Nat.ne_of_lt inside) Bool.false_ne_true
  · have missing : lexemes[failure.place]? = none := List.getElem?_eq_none (Nat.le_of_eq atEnd.symm)
    refine ⟨?_, within, ?_⟩
    · rw [offset, Lexeme.startOf, missing]
    · have names := wants atEnd
      have expected : (ParseError.ofFailure source lexemes failure).expected =
          Want.names failure.wants := rfl
      rw [ParseError.isAtEnd, told, expected]
      simpa [atEnd] using names

theorem promptless_placed_at {error : ParseError} {index : Nat} {lexeme : Lexeme}
    (found : lexemes[index]? = some lexeme) (offset : error.position.offset = lexeme.start)
    (fault : error.fault = .promptlessChoice) : error.PlacedAt source lexemes index := by
  have inside : index < lexemes.length := (List.getElem?_eq_some_iff.1 found).1
  refine ⟨?_, Nat.le_of_lt inside, ?_⟩
  · rw [offset, Lexeme.startOf, found]
  · have nothing : error.expected = [] := by
      rw [ParseError.expected, fault]
      rfl
    rw [ParseError.isAtEnd, nothing]
    simpa using Nat.ne_of_lt inside

section SameTokens

variable (scanned : Lexeme.ofSource source = .ok lexemes)
  (scanned' : Lexeme.ofSource source' = .ok lexemes')
  (same : lexemes'.map Lexeme.token = lexemes.map Lexeme.token)

include scanned scanned' same

theorem ok_iff_of_tokens (root : Root) : parse source' = .ok root ↔ parse source = .ok root := by
  have read : Token.ofSource source = .ok (lexemes.map Lexeme.token) := by
    rw [Token.ofSource, scanned]
  have read' : Token.ofSource source' = .ok (lexemes.map Lexeme.token) := by
    rw [Token.ofSource, scanned', ← same]
  constructor
  · exact parse_of_same read' read fun _ => Iff.rfl
  · exact parse_of_same read read' fun _ => Iff.rfl

/-- Errors in sources with the same tokens have the same fault and stand at the same token. -/
theorem error_of_tokens {error : ParseError} (failed : parse source = .error error) :
    ∃ error' index, parse source' = .error error' ∧ error'.fault = error.fault ∧
      error.PlacedAt source lexemes index ∧ error'.PlacedAt source' lexemes' index := by
  have lengths : lexemes'.length = lexemes.length := by
    simpa only [List.length_map] using congrArg List.length same
  by_cases accepted : Accepts (lexemes.map Lexeme.token)
  · have accepted' : Accepts (lexemes'.map Lexeme.token) := by rwa [same]
    obtain ⟨error', failed'⟩ : ∃ error', parse source' = .error error' := by
      cases parsed : parse source' with
      | error error' => exact ⟨error', rfl⟩
      | ok root =>
          rw [(ok_iff_of_tokens scanned scanned' same root).1 parsed] at failed
          exact nomatch failed
    obtain ⟨index, lexeme, promptless, first, found, -, offset, fault⟩ :=
      promptless_error scanned accepted failed
    obtain ⟨index', lexeme', promptless', first', found', -, offset', fault'⟩ :=
      promptless_error scanned' accepted' failed'
    rw [same] at promptless' first'
    obtain rfl : index = index' :=
      Nat.le_antisymm (first index' promptless') (first' index promptless)
    exact ⟨error', index, failed', fault'.trans fault.symm, promptless_placed_at found offset fault,
      promptless_placed_at found' offset' fault'⟩
  · obtain ⟨failure, outcome, within, wants⟩ := failure_of_rejected accepted
    have outcome' : Grammar.source (lexemes'.map Lexeme.token) = .fail failure := by rwa [same]
    rw [List.length_map] at within wants
    have parsed : parse source = .error (.ofFailure source lexemes failure) := by
      simp only [parse, scanned, outcome]
    have parsed' : parse source' = .error (.ofFailure source' lexemes' failure) := by
      simp only [parse, scanned', outcome']
    obtain rfl := Except.error.inj (parsed.symm.trans failed)
    refine ⟨_, failure.place, parsed', ?_, failure_placed_at scanned within wants, ?_⟩
    · have found : lexemes'[failure.place]?.map Lexeme.token =
          lexemes[failure.place]?.map Lexeme.token := by
        rw [← List.getElem?_map, same, List.getElem?_map]
      simp only [ParseError.ofFailure, found]
    · rw [← lengths] at within wants
      exact failure_placed_at scanned' within wants

end SameTokens

/-- The layout of a source does not matter. Whatever blanks fill its gaps, if only there are some
wherever there have been some, the tokens are the same, and so is the tree, or the error but for the
bytes at which its token starts. -/
theorem parse_relaid (scanned : Lexeme.ofSource source = .ok lexemes) :
    (∃ layout : Layout, layout.source = source ∧ layout.lexemes = lexemes) ∧
    ∀ layout layout' : Layout, layout.source = source → layout.lexemes = lexemes →
      layout.Relaid layout' →
      Token.ofSource layout'.source = Token.ofSource source ∧
      Lexeme.ofSource layout'.source = .ok layout'.lexemes ∧
      (∀ root, parse layout'.source = .ok root ↔ parse source = .ok root) ∧
      ∀ error, parse source = .error error → ∃ error' index,
        parse layout'.source = .error error' ∧ error'.found = error.found ∧
        error'.expected = error.expected ∧ error'.detail = error.detail ∧
        error.PlacedAt source lexemes index ∧
        error'.PlacedAt layout'.source layout'.lexemes index := by
  constructor
  · obtain ⟨layout, shown, same⟩ := Layout.exists_layout scanned
    refine ⟨layout, ?_, same⟩
    rw [Layout.source, shown, String.ofList_toList]
  · rintro layout layout' rfl rfl relaid
    have readable := layout.of_source_iff.1 scanned
    have scanned' := layout'.of_source_iff.2 (relaid.readable readable)
    have same : layout'.lexemes.map Lexeme.token = layout.lexemes.map Lexeme.token :=
      relaid.tokens 0 0
    refine ⟨?_, scanned', ok_iff_of_tokens scanned scanned' same, ?_⟩
    · rw [Token.ofSource, Token.ofSource, scanned, scanned']
      exact congrArg Except.ok same
    · intro error failed
      obtain ⟨error', index, failed', fault, placed, placed'⟩ :=
        error_of_tokens scanned scanned' same failed
      refine ⟨error', index, failed', ?_, ?_, ?_, placed, placed'⟩
      · rw [ParseError.found, fault, ParseError.found]
      · rw [ParseError.expected, fault, ParseError.expected]
      · rw [ParseError.detail, fault, ParseError.detail]

/-- A range that is not closed, written without any gap that can be left out. -/
def tightRange : Layout :=
  .word [] (.keyword .config) (.word [' '] (.ident "A") (.word [' '] (.keyword .hex)
    (.word [] (.mark .openBrace) (.word [] (.keyword .range) (.word [] (.mark .openBracket)
      (.word [] (.int "-64") (.word [] (.ident "BIT") (.last []))))))))

def wideRange : Layout :=
  .word ['\n'] (.keyword .config) (.word ['\t'] (.ident "A") (.word [' ', ' '] (.keyword .hex)
    (.word [] (.mark .openBrace) (.word ['\x0c'] (.keyword .range) (.word [] (.mark .openBracket)
      (.word [] (.int "-64") (.word ['\r'] (.ident "BIT") (.last ['\n']))))))))

theorem range_relaid : tightRange.Relaid wideRange :=
  .word _ (.of_test rfl rfl) <| .word _ (.of_test rfl rfl) <| .word _ (.of_test rfl rfl) <|
    .word _ (.of_test rfl rfl) <| .word _ (.of_test rfl rfl) <| .word _ (.of_test rfl rfl) <|
      .word _ (.of_test rfl rfl) <| .word _ (.of_test rfl rfl) <| .last (.of_test rfl rfl)

/-- Both sources end too early, each where it ends. -/
theorem parse_relaid_of_range :
    tightRange.source = "config A hex\x7brange[-64BIT" ∧
    Lexeme.ofSource tightRange.source = .ok tightRange.lexemes ∧ tightRange.Relaid wideRange ∧
    ∃ error error', parse tightRange.source = .error error ∧ error.position.offset = 25 ∧
      parse wideRange.source = .error error' ∧ error'.position.offset = 30 ∧
      error'.detail = error.detail ∧ error.isAtEnd = true := by
  have scanned : Lexeme.ofSource tightRange.source = .ok tightRange.lexemes := by decide +kernel
  have failed : parse tightRange.source =
      .error ⟨⟨25, 0, 25⟩, .unexpected none [.token (.mark .closeBracket)]⟩ := by decide +kernel
  have size : wideRange.source.utf8ByteSize = 30 := by decide +kernel
  obtain ⟨error', index, failed', -, -, detail, placed, placed'⟩ :=
    ((parse_relaid scanned).2 _ _ rfl rfl range_relaid).2.2.2 _ failed
  obtain rfl : index = 8 := placed.atEnd.2 (by decide)
  exact ⟨by decide +kernel, scanned, range_relaid, _, error', failed, rfl, failed',
    placed'.offset.trans size, detail, by decide⟩

end Root

end KernelMenu

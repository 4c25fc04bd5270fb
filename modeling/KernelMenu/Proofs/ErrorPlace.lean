import KernelMenu.Proofs.BlockClosing
import KernelMenu.Proofs.ExpectedNames
import KernelMenu.Proofs.LexemePlace

/-!
Where an error of the grammar stands and what it expects there: at the first token that no accepted
source goes on with, or at the end of what is too short; and it expects all that an accepted source
goes on with.
-/

namespace KernelMenu

open Grammar Language

/-- The error stands at the token with this number: at the byte where the token starts, or behind
the last token where the source ends. -/
def ParseError.StandsAt (error : ParseError) (source : String) (lexemes : List Lexeme)
    (index : Nat) : Prop :=
  (∃ lexeme, lexemes[index]? = some lexeme ∧ error.found = some lexeme.token.spelling ∧
      error.position.offset = lexeme.start) ∨
    (index = lexemes.length ∧ error.found = none ∧ error.position.offset = source.utf8ByteSize)

section

variable {source : String} {lexemes : List Lexeme}

theorem failure_stands_at (scanned : Lexeme.ofSource source = .ok lexemes) {failure : Failure}
    (within : failure.place ≤ lexemes.length) :
    (ParseError.ofFailure source lexemes failure).StandsAt source lexemes failure.place := by
  rcases Nat.lt_or_eq_of_le within with inside | atEnd
  · have found := List.getElem?_eq_getElem inside
    have less := Lexeme.start_lt_size scanned found
    refine .inl ⟨lexemes[failure.place], found, ?_, ?_⟩
    · simp [ParseError.found, ParseError.ofFailure, ParseFault.found, found]
    · simp only [ParseError.ofFailure, Position.ofOffset, Lexeme.startOf, found]
      omega
  · have none := List.getElem?_eq_none (Nat.le_of_eq atEnd.symm)
    refine .inr ⟨atEnd, ?_, ?_⟩
    · simp [ParseError.found, ParseError.ofFailure, ParseFault.found, none]
    · simp [ParseError.ofFailure, Position.ofOffset, Lexeme.startOf, none]

theorem stands_at_unique (scanned : Lexeme.ofSource source = .ok lexemes) {error : ParseError}
    {index other : Nat} (stands : error.StandsAt source lexemes index)
    (stands' : error.StandsAt source lexemes other) : index = other := by
  rcases stands with ⟨lexeme, found, -, start⟩ | ⟨atEnd, -, start⟩
  · rcases stands' with ⟨lexeme', found', -, start'⟩ | ⟨-, -, start'⟩
    · exact Lexeme.index_of_start scanned found found' (start.symm.trans start')
    · have less := Lexeme.start_lt_size scanned found
      omega
  · rcases stands' with ⟨lexeme', found', -, start'⟩ | ⟨atEnd', -, -⟩
    · have less := Lexeme.start_lt_size scanned found'
      omega
    · exact atEnd.trans atEnd'.symm

theorem parse_of_rejected (scanned : Lexeme.ofSource source = .ok lexemes)
    (rejected : ¬ Accepts (lexemes.map Lexeme.token)) : ∃ failure,
      Root.parse source = .error (.ofFailure source lexemes failure) ∧
      failure.place ≤ lexemes.length ∧
      Phrase.Source.Viable ((lexemes.map Lexeme.token).take failure.place) ∧
      (failure.place < lexemes.length →
        ¬ Phrase.Source.Viable ((lexemes.map Lexeme.token).take (failure.place + 1))) ∧
      Wanted ((lexemes.map Lexeme.token).take failure.place)
        ((lexemes.map Lexeme.token).drop failure.place) failure.wants := by
  have result := source_read (lexemes.map Lexeme.token)
  generalize outcome : Grammar.source (lexemes.map Lexeme.token) = given at result
  cases result with
  | accepted => exact absurd ⟨_, _, _, outcome⟩ rejected
  | @rejected failure word rest none split place viable stuck wanted =>
      have length := congrArg List.length split
      rw [List.length_map, List.length_append] at length
      refine ⟨failure, by simp [Root.parse, scanned, outcome], by omega, ?_, ?_, ?_⟩
      · rwa [split, place, List.take_left]
      · intro inside
        rcases rest with _ | ⟨token, after⟩
        · rw [List.length_nil] at length
          omega
        · rw [split, place, List.take_length_add_append, List.take_succ_cons, List.take_zero]
          exact stuck token after rfl
      · rwa [split, place, List.take_left, List.drop_left]

section Names

variable {word rest : List Token} {wants : List Want}

/-- Behind tokens that begin a source but are none, some token is sought, unless a guard ends there
in front of a brace. -/
theorem exists_sought (viable : Phrase.Source.Viable word)
    (rejected : ∀ drafts, ¬ Phrase.Source word drafts)
    (apart : BehindGuard word → rest.head? ≠ some (.mark .openBrace)) :
    ∃ token, Phrase.Source.Sought word rest token := by
  by_cases behind : BehindGuard word
  · exact ⟨.mark .closeBrace, Phrase.source_closes_behind_guard viable behind,
      fun _ => ⟨nofun, apart behind⟩⟩
  · obtain ⟨after, drafts, holds⟩ := viable
    rcases after with _ | ⟨token, after⟩
    · rw [List.append_nil] at holds
      exact absurd holds (rejected drafts)
    · refine ⟨token, ⟨after, drafts, ?_⟩, fun inside => absurd inside behind⟩
      simpa using holds

theorem names_of_end (wanted : Wanted word rest wants) (ending : .endOfInput ∈ wants) :
    Want.names wants ≠ [] :=
  List.ne_nil_of_mem (wanted.end_named.2 ending)

theorem names_of_sought (wanted : Wanted word rest wants) {token : Token}
    (sought : Phrase.Source.Sought word rest token) : Want.names wants ≠ [] := by
  obtain ⟨want, member, admits⟩ := (wanted.tokens token).2 sought
  cases want with
  | token other => exact List.ne_nil_of_mem (wanted.mem_names.2 (.inl ⟨other, member, rfl⟩))
  | endOfInput => exact admits.elim
  | oneOf tokens => exact List.ne_nil_of_mem ((wanted.class_named tokens).2 member)

/-- Where an accepted source goes on, something is expected. -/
theorem names_ne_nil (wanted : Wanted word [] wants) (viable : Phrase.Source.Viable word)
    (rejected : ∀ drafts, ¬ Phrase.Source word drafts) : Want.names wants ≠ [] := by
  obtain ⟨token, sought⟩ : ∃ token, Phrase.Source.Sought word [] token :=
    exists_sought viable rejected fun _ => nofun
  exact names_of_sought wanted sought

/-- Wherever the tokens stop to begin a source, something is expected: the end, or a token. -/
theorem names_filled (wanted : Wanted word rest wants) (viable : Phrase.Source.Viable word) :
    Want.names wants ≠ [] := by
  by_cases whole : ∃ drafts, Phrase.Source word drafts
  · have free : ¬ BehindGuard word := by
      obtain ⟨drafts, holds⟩ := whole
      exact Phrase.source_not_behind_guard holds
    exact names_of_end wanted ((wanted.ending free).2 whole)
  · by_cases blocked : Blocked word rest
    · exact names_of_end wanted ((wanted.blocked blocked.1).2 blocked.2)
    · obtain ⟨token, sought⟩ := exists_sought viable (not_exists.1 whole)
        fun behind brace => blocked ⟨behind, brace⟩
      exact names_of_sought wanted sought

end Names

/-- An error of the grammar stands at the first token with which no accepted source goes on. So a
source that an accepted one goes on from is accepted, or it is told that it ends too early. -/
theorem grammar_error_place (scanned : Lexeme.ofSource source = .ok lexemes) :
    (¬ Accepts (lexemes.map Lexeme.token) → ∃ error index,
      Root.parse source = .error error ∧ error.StandsAt source lexemes index ∧
      (∀ other, error.StandsAt source lexemes other → other = index) ∧
      Continues ((lexemes.map Lexeme.token).take index) ∧
      (index < lexemes.length → ¬ Continues ((lexemes.map Lexeme.token).take (index + 1)))) ∧
    (Continues (lexemes.map Lexeme.token) → Accepts (lexemes.map Lexeme.token) ∨
      ∃ error, Root.parse source = .error error ∧ error.isAtEnd = true ∧ error.found = none ∧
        error.position.offset = source.utf8ByteSize) := by
  constructor
  · intro rejected
    obtain ⟨failure, parsed, within, viable, stuck, -⟩ := parse_of_rejected scanned rejected
    have stands := failure_stands_at scanned within
    refine ⟨_, failure.place, parsed, stands, fun other stands' => stands_at_unique scanned stands'
      stands, continues_iff.2 viable, fun inside => ?_⟩
    rw [continues_iff]
    exact stuck inside
  · intro continues
    by_cases accepted : Accepts (lexemes.map Lexeme.token)
    · exact .inl accepted
    obtain ⟨failure, parsed, within, viable, stuck, wanted⟩ := parse_of_rejected scanned accepted
    have going := continues_iff.1 continues
    have atEnd : failure.place = lexemes.length := by
      rcases Nat.lt_or_eq_of_le within with inside | atEnd
      · refine absurd ?_ (stuck inside)
        rw [← List.take_append_drop (failure.place + 1) (lexemes.map Lexeme.token)] at going
        exact going.of_append
      · exact atEnd
    have whole : (lexemes.map Lexeme.token).take failure.place = lexemes.map Lexeme.token := by
      rw [atEnd, ← List.length_map Lexeme.token, List.take_length]
    have nothing : (lexemes.map Lexeme.token).drop failure.place = [] := by
      rw [atEnd, ← List.length_map Lexeme.token, List.drop_length]
    rw [whole, nothing] at wanted
    have names := names_ne_nil wanted going fun drafts holds =>
      accepted (accepts_iff.2 ⟨drafts, holds⟩)
    refine .inr ⟨_, parsed, ?_⟩
    rcases failure_stands_at scanned within with ⟨lexeme, found, -⟩ | ⟨-, none, offset⟩
    · rw [atEnd, List.getElem?_eq_none (Nat.le_refl _)] at found
      exact nomatch found
    · have expected : (ParseError.ofFailure source lexemes failure).expected =
          Want.names failure.wants := rfl
      refine ⟨?_, none, offset⟩
      rw [ParseError.isAtEnd, none, expected]
      simpa using names

theorem menu_scanned : Lexeme.ofSource "menu" = .ok [⟨.keyword .menu, 0, 4⟩] := by
  have found : Token.scan? "menu".toList = some (.keyword .menu, []) := by decide
  exact Lexeme.scan_from_token found (by rw [Lexeme.scanFrom])

theorem menu_rejected : ¬ Accepts [.keyword .menu] := by
  rw [accepts_iff]
  rintro ⟨drafts, holds⟩
  obtain ⟨parts, symbols, -⟩ := Phrase.source_iff.1 holds
  rcases star_nil_or_cons symbols with ⟨none, -⟩ | ⟨first, rest, value, values, same, -, symbol, -⟩
  · exact nomatch none
  · cases symbol with
    | menu => simp at same
    | config holds =>
        obtain ⟨token, first, rfl, known⟩ := Phrase.config_first holds
        obtain ⟨rfl, -⟩ := List.cons.inj same
        exact absurd known (by decide)
    | choice => exact nomatch (List.cons.inj same).1
    | block guard =>
        obtain ⟨tail, rfl, -⟩ := Phrase.guard_cons guard
        exact nomatch (List.cons.inj same).1

theorem menu_continues : Continues [.keyword .menu] := by
  rw [continues_iff]
  have whole := Phrase.Source.intro (.cons (.menu "" .none .nil) .nil)
  exact ⟨_, _, whole⟩

/-- A menu without a title ends too early. -/
theorem grammar_error_place_of_menu :
    Lexeme.ofSource "menu" = .ok [⟨.keyword .menu, 0, 4⟩] ∧
    ¬ Accepts [.keyword .menu] ∧ Continues [.keyword .menu] ∧
    (∃ error index, Root.parse "menu" = .error error ∧
      error.StandsAt "menu" [⟨.keyword .menu, 0, 4⟩] index ∧
      Continues ([Token.keyword .menu].take index)) ∧
    ∃ error, Root.parse "menu" = .error error ∧ error.isAtEnd = true ∧
      error.position.offset = 4 := by
  obtain ⟨error, index, parsed, stands, -, continues, -⟩ :=
    (grammar_error_place menu_scanned).1 menu_rejected
  rcases (grammar_error_place menu_scanned).2 menu_continues with
    accepted | ⟨error', parsed', atEnd, -, offset⟩
  · exact absurd accepted menu_rejected
  · exact ⟨menu_scanned, menu_rejected, menu_continues, ⟨error, index, parsed, stands, continues⟩,
      error', parsed', atEnd, offset⟩

theorem expected_of_rejected (scanned : Lexeme.ofSource source = .ok lexemes)
    (rejected : ¬ Accepts (lexemes.map Lexeme.token)) {error : ParseError} {index : Nat}
    (parsed : Root.parse source = .error error) (stands : error.StandsAt source lexemes index) :
    ∃ wants, error.expected = Want.names wants ∧
      Wanted ((lexemes.map Lexeme.token).take index) ((lexemes.map Lexeme.token).drop index)
        wants := by
  obtain ⟨failure, parsed', within, -, -, wanted⟩ := parse_of_rejected scanned rejected
  obtain rfl := Except.error.inj (parsed.symm.trans parsed')
  have place := stands_at_unique scanned stands (failure_stands_at scanned within)
  rw [← place] at wanted
  exact ⟨failure.wants, rfl, wanted⟩

/-- The names tell exactly how an accepted source goes on behind the tokens. A token with a fixed
spelling is told by that spelling, any other one by a class that has it. -/
structure TellsAll (names : List String) (front : List Token) : Prop where
  token : ∀ token : Token, token.kind ≠ .classed →
    ("'" ++ token.spelling ++ "'" ∈ names ↔ Continues (front ++ [token]))
  type : ∀ type : ValueType, "type" ∈ names ↔ Continues (front ++ [.keyword type.keyword])
  text : ∀ body, "string literal" ∈ names ↔ Continues (front ++ [.text body]) ∧
    ¬ ∃ name, Continues (front ++ [.ident name])
  identifier : ∀ name, "identifier" ∈ names ↔ Continues (front ++ [.ident name]) ∧
    ¬ ∃ digits, Continues (front ++ [.int digits])
  value : ∀ digits, "identifier or value" ∈ names ↔ Continues (front ++ [.int digits])
  anyValue : "identifier or value" ∈ names → ∀ token, TokenClass.value.Has token →
    Continues (front ++ [token])
  ending : "end of input" ∈ names ↔ Accepts front
  only : ∀ name ∈ names, (∃ token : Token, token.kind ≠ .classed ∧
    name = "'" ++ token.spelling ++ "'") ∨ name = "end of input" ∨
      name = "type" ∨ name = "string literal" ∨ name = "identifier" ∨ name = "identifier or value"

theorem tells_all_of_wanted {front rest : List Token} {wants : List Want}
    (wanted : Wanted front rest wants) (free : ¬ BehindGuard front) :
    TellsAll (Want.names wants) front where
  token token fixed := by
    rw [wanted.token_named fixed, wanted.token_iff free fixed, continues_iff]
  type type := by
    have named := wanted.class_named .type
    rw [wanted.type_iff free type] at named
    rw [continues_iff]
    exact named
  text body := by
    have named := wanted.class_named .text
    rw [wanted.text_iff free body] at named
    simp only [continues_iff]
    exact named
  identifier name := by
    have named := wanted.class_named .identifier
    rw [wanted.identifier_iff free name] at named
    simp only [continues_iff]
    exact named
  value digits := by
    have named := wanted.class_named .value
    rw [wanted.value_iff free digits] at named
    rw [continues_iff]
    exact named
  anyValue named token has := by
    have member := (wanted.class_named .value).1 named
    rw [continues_iff]
    exact wanted.value_follows free member has
  ending := by
    rw [wanted.end_named, wanted.ending free, accepts_iff]
  only name named := by
    rcases wanted.mem_names.1 named with ⟨token, member, rfl⟩ | ⟨-, rfl⟩ | ⟨tokens, -, rfl⟩
    · exact .inl ⟨token, wanted.fixed token member, rfl⟩
    · exact .inr (.inl rfl)
    · cases tokens with
      | type => exact .inr (.inr (.inl rfl))
      | text => exact .inr (.inr (.inr (.inl rfl)))
      | identifier => exact .inr (.inr (.inr (.inr (.inl rfl))))
      | value => exact .inr (.inr (.inr (.inr (.inr rfl))))

/-- Unless it stands right behind the condition of a property, an error of the grammar expects
exactly what an accepted source goes on with. -/
theorem grammar_error_expected (scanned : Lexeme.ofSource source = .ok lexemes)
    (rejected : ¬ Accepts (lexemes.map Lexeme.token)) {error : ParseError} {index : Nat}
    (parsed : Root.parse source = .error error) (stands : error.StandsAt source lexemes index)
    (free : ¬ BehindGuard ((lexemes.map Lexeme.token).take index)) :
    TellsAll error.expected ((lexemes.map Lexeme.token).take index) := by
  obtain ⟨wants, expected, wanted⟩ := expected_of_rejected scanned rejected parsed stands
  rw [expected]
  exact tells_all_of_wanted wanted free

/-- A menu without a title misses just the title. -/
theorem grammar_error_expected_of_menu :
    Lexeme.ofSource "menu" = .ok [⟨.keyword .menu, 0, 4⟩] ∧ ¬ Accepts [.keyword .menu] ∧
    ¬ BehindGuard [.keyword .menu] ∧ ∃ error, Root.parse "menu" = .error error ∧
      error.StandsAt "menu" [⟨.keyword .menu, 0, 4⟩] 1 ∧
      TellsAll error.expected [.keyword .menu] := by
  have free : ¬ BehindGuard [.keyword .menu] := fun behind =>
    absurd behind.one_lt_length (by decide)
  obtain ⟨failure, parsed, within, -, stuck, -⟩ := parse_of_rejected menu_scanned menu_rejected
  have last : failure.place = 1 := by
    rcases Nat.lt_or_eq_of_le within with inside | atEnd
    · have zero : failure.place = 0 := Nat.lt_one_iff.1 inside
      rw [zero] at stuck
      exact absurd (continues_iff.1 menu_continues) (stuck Nat.one_pos)
    · exact atEnd
  have stands := failure_stands_at menu_scanned within
  rw [last] at stands
  exact ⟨menu_scanned, menu_rejected, free, _, parsed, stands,
    grammar_error_expected menu_scanned menu_rejected parsed stands free⟩

end

end KernelMenu

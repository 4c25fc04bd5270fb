import KernelMenu.Proofs.ChoiceError
import KernelMenu.Proofs.LineColumn
import KernelMenu.Proofs.NameOrder
import KernelMenu.Proofs.SourceTiling

/-!
What an error says fits the source that it points into, whether the text, the grammar or a choice is
at fault.
-/

namespace KernelMenu

open Grammar

/-- From a byte on, the source goes on with the text; no character reaches across the place. -/
def GoesOn (source : String) (offset : Nat) (text : String) : Prop :=
  ∃ before after, source = before ++ text ++ after ∧ before.utf8ByteSize = offset

namespace GoesOn

variable {source text : String} {offset : Nat}

theorem le (goesOn : GoesOn source offset text) : offset ≤ source.utf8ByteSize := by
  obtain ⟨before, after, rfl, rfl⟩ := goesOn
  rw [String.utf8ByteSize_append, String.utf8ByteSize_append, Nat.add_assoc]
  exact Nat.le_add_right _ _

theorem nothing (goesOn : GoesOn source offset text) : GoesOn source offset "" := by
  obtain ⟨before, after, rfl, rfl⟩ := goesOn
  exact ⟨before, text ++ after, by simp [String.append_assoc], rfl⟩

theorem of_end (source : String) : GoesOn source source.utf8ByteSize "" :=
  ⟨source, "", by simp, rfl⟩

end GoesOn

theorem StandsAt.goes_on {source text : String} {start stop : Nat}
    (stands : StandsAt source start stop text) : GoesOn source start text := by
  obtain ⟨before, after, split, size, -⟩ := stands
  exact ⟨before, after, split, size⟩

theorem Position.offset_of_le {source : String} {offset : Nat}
    (within : offset ≤ source.utf8ByteSize) : (ofOffset source offset).offset = offset :=
  Nat.min_eq_left within

theorem Position.table_again (source : String) (offset : Nat) :
    (LineTable.ofSource source).position? (ofOffset source offset).offset =
      some (ofOffset source offset) := by
  rw [table_position]
  exact congrArg some (of_offset_min source offset)

/-- The error stands at a place of the source between two characters, with the line and the column
that the table of lines has for it, and what is found there is what the source goes on with. The
names of what is expected are sorted and each is told once, and an error of the grammar expects
something. The error is one at the end just if an accepted source goes on behind all tokens; only
for a choice without a prompt nothing is found elsewhere. -/
structure ParseError.Fits (error : ParseError) (source : String) : Prop where
  within : error.position.offset ≤ source.utf8ByteSize
  boundary : GoesOn source error.position.offset ""
  position : (LineTable.ofSource source).position? error.position.offset = some error.position
  expected : error.expected.Pairwise fun left right => textBytes left < textBytes right
  found : ∀ text, error.found = some text → GoesOn source error.position.offset text
  grammar : ∀ lexemes, Lexeme.ofSource source = .ok lexemes →
    ¬ Accepts (lexemes.map Lexeme.token) → error.expected ≠ []
  atEnd : error.isAtEnd = true ↔ ∃ lexemes, Lexeme.ofSource source = .ok lexemes ∧
    ¬ Accepts (lexemes.map Lexeme.token) ∧ Continues (lexemes.map Lexeme.token)
  ending : error.isAtEnd = true → error.position.offset = source.utf8ByteSize
  promptless : error.found = none → error.isAtEnd = false → error.fault = .promptlessChoice ∧
    GoesOn source error.position.offset "choice"

theorem LexicalError.goes_on {source : String} {error : LexicalError}
    (failed : Lexeme.ofSource source = .error error) : GoesOn source error.start error.text := by
  obtain ⟨front, rest, words, split, stuck, rfl, -⟩ := Lexeme.cut_of_error failed
  obtain ⟨after, ends, -⟩ := stray_text stuck.filled
  refine ⟨String.ofList front, String.ofList after, ?_, (Nat.zero_add _).symm⟩
  apply String.toList_injective
  simpa using split.trans (congrArg (front ++ ·) ends)

/-- Line and column of an error are looked up in the table. -/
theorem Root.error_position {source : String} {error : ParseError}
    (failed : parse source = .error error) :
    (LineTable.ofSource source).position? error.position.offset = some error.position := by
  rw [parse] at failed
  split at failed
  case h_1 =>
    obtain rfl := Except.error.inj failed
    exact Position.table_again source _
  case h_2 =>
    split at failed
    case h_1 =>
      obtain rfl := Except.error.inj failed
      exact Position.table_again source _
    case h_2 =>
      split at failed
      case h_1 =>
        obtain rfl := Except.error.inj failed
        exact Position.table_again source _
      case h_2 => cases failed

namespace ParseError

variable {source : String} {lexemes : List Lexeme}

theorem fits_of_stray {error : LexicalError} (failed : Lexeme.ofSource source = .error error) :
    (ofLexical source error).Fits source := by
  have goesOn := error.goes_on failed
  have offset : (ofLexical source error).position.offset = error.start :=
    Position.offset_of_le goesOn.le
  have found : (ofLexical source error).found = some error.text := rfl
  have notAtEnd : (ofLexical source error).isAtEnd = false := rfl
  constructor
  case within => exact offset ▸ goesOn.le
  case boundary => exact offset ▸ goesOn.nothing
  case position => exact Position.table_again source error.start
  case expected => exact .nil
  case found =>
    intro text same
    rw [found] at same
    obtain rfl := Option.some.inj same
    exact offset ▸ goesOn
  case grammar =>
    intro lexemes scanned
    rw [failed] at scanned
    cases scanned
  case atEnd =>
    rw [notAtEnd]
    refine ⟨nofun, ?_⟩
    rintro ⟨lexemes, scanned, -⟩
    rw [failed] at scanned
    cases scanned
  case ending => exact nofun
  case promptless => exact nofun

theorem fits_of_rejected (scanned : Lexeme.ofSource source = .ok lexemes)
    (rejected : ¬ Accepts (lexemes.map Lexeme.token)) {error : ParseError}
    (failed : Root.parse source = .error error) : error.Fits source := by
  obtain ⟨failure, failed', inside, viable, stuck, wanted⟩ := parse_of_rejected scanned rejected
  obtain rfl := Except.error.inj (failed'.symm.trans failed)
  have filled : (ofFailure source lexemes failure).expected ≠ [] := names_filled wanted viable
  have sorted : (ofFailure source lexemes failure).expected.Pairwise fun left right =>
      textBytes left < textBytes right := wanted.names_increase
  have position := Root.error_position failed
  rcases failure_stands_at scanned inside with
    ⟨lexeme, listed, found, offset⟩ | ⟨last, none, offset⟩
  · have stands := (Lexeme.tiles_of_scan scanned).spelled lexeme (List.mem_of_getElem? listed)
    have goesOn := stands.goes_on
    have notAtEnd : ¬ (ofFailure source lexemes failure).isAtEnd = true := by
      rw [isAtEnd, found]
      exact Bool.false_ne_true
    rw [← offset] at goesOn
    refine ⟨goesOn.le, goesOn.nothing, position, sorted, ?_, fun _ _ _ => filled, ?_, ?_, ?_⟩
    · intro text same
      rw [found] at same
      obtain rfl := Option.some.inj same
      exact goesOn
    · refine ⟨fun atEnd => absurd atEnd notAtEnd, ?_⟩
      rintro ⟨lexemes', scanned', -, continues⟩
      obtain rfl := Except.ok.inj (scanned'.symm.trans scanned)
      have going := continues_iff.1 continues
      rw [← List.take_append_drop (failure.place + 1) (lexemes'.map Lexeme.token)] at going
      exact absurd going.of_append (stuck (List.getElem?_eq_some_iff.1 listed).1)
    · exact fun atEnd => absurd atEnd notAtEnd
    · intro none
      rw [found] at none
      cases none
  · have atEnd : (ofFailure source lexemes failure).isAtEnd = true := by
      rw [isAtEnd, none]
      simpa using filled
    have goesOn := GoesOn.of_end source
    rw [← offset] at goesOn
    refine ⟨goesOn.le, goesOn, position, sorted, ?_, fun _ _ _ => filled, ?_, fun _ => offset, ?_⟩
    · intro text same
      rw [none] at same
      cases same
    · refine ⟨fun _ => ⟨lexemes, scanned, rejected, continues_iff.2 ?_⟩, fun _ => atEnd⟩
      rwa [last, ← List.length_map Lexeme.token, List.take_length] at viable
    · intro _ notAtEnd
      rw [atEnd] at notAtEnd
      cases notAtEnd

theorem fits_of_promptless (scanned : Lexeme.ofSource source = .ok lexemes)
    (accepted : Accepts (lexemes.map Lexeme.token)) {error : ParseError}
    (failed : Root.parse source = .error error) : error.Fits source := by
  obtain ⟨index, lexeme, -, -, listed, isChoice, offset, fault⟩ :=
    Root.promptless_error scanned accepted failed
  have stands := (Lexeme.tiles_of_scan scanned).spelled lexeme (List.mem_of_getElem? listed)
  have goesOn := stands.goes_on
  rw [← offset, isChoice] at goesOn
  have none : error.found = none := by
    rw [ParseError.found, fault]
    rfl
  have nothing : error.expected = [] := by
    rw [ParseError.expected, fault]
    rfl
  have notAtEnd : ¬ error.isAtEnd = true := by
    rw [isAtEnd, none, nothing]
    exact Bool.false_ne_true
  refine ⟨goesOn.le, goesOn.nothing, Root.error_position failed, ?_, ?_, ?_, ?_, ?_, ?_⟩
  · rw [nothing]
    exact .nil
  · intro text same
    rw [none] at same
    cases same
  · intro lexemes' scanned' rejected
    obtain rfl := Except.ok.inj (scanned'.symm.trans scanned)
    exact absurd accepted rejected
  · refine ⟨fun atEnd => absurd atEnd notAtEnd, ?_⟩
    rintro ⟨lexemes', scanned', rejected, -⟩
    obtain rfl := Except.ok.inj (scanned'.symm.trans scanned)
    exact absurd accepted rejected
  · exact fun atEnd => absurd atEnd notAtEnd
  · exact fun _ _ => ⟨fault, goesOn⟩

end ParseError

namespace Root

/-- Whatever is wrong with a source, the error fits it. -/
theorem parse_error_fits {source : String} {error : ParseError}
    (failed : parse source = .error error) : error.Fits source := by
  cases scanned : Lexeme.ofSource source with
  | error stray =>
      have told : parse source = .error (.ofLexical source stray) := by rw [parse, scanned]
      obtain rfl := Except.error.inj (told.symm.trans failed)
      exact ParseError.fits_of_stray scanned
  | ok lexemes =>
      by_cases accepted : Accepts (lexemes.map Lexeme.token)
      · exact ParseError.fits_of_promptless scanned accepted failed
      · exact ParseError.fits_of_rejected scanned accepted failed

/-- A choice without a prompt in the second line, behind a character of two bytes. -/
theorem parse_error_fits_of_choice :
    parse "menu \"é\"\x7b\nchoice hex\x7b\x7d\x7d" = .error ⟨⟨11, 1, 0⟩, .promptlessChoice⟩ ∧
    ParseError.Fits ⟨⟨11, 1, 0⟩, .promptlessChoice⟩ "menu \"é\"\x7b\nchoice hex\x7b\x7d\x7d" := by
  have failed : parse "menu \"é\"\x7b\nchoice hex\x7b\x7d\x7d" =
      .error ⟨⟨11, 1, 0⟩, .promptlessChoice⟩ := by decide +kernel
  exact ⟨failed, parse_error_fits failed⟩

end Root

end KernelMenu

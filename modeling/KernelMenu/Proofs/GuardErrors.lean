import Mathlib.Data.List.Basic
import KernelMenu.Proofs.ErrorPlace

/-!
What an error expects right behind the guard of a property. The grammar looks one token ahead there
and gives the guard up in front of a brace. So a brace is never expected, and the end of the input
just where a brace stands; everything else is told as it is.
-/

namespace KernelMenu

open Grammar

/-- The names tell of a brace where a block may open, and of the end only where the source could
end. -/
structure TellsBlocks (names : List String) (front : List Token) : Prop where
  brace : Continues (front ++ [.mark .openBrace]) → "'\x7b'" ∈ names
  ending : "end of input" ∈ names → Accepts front

theorem not_accepts_behind_guard {front : List Token} (behind : BehindGuard front) :
    ¬ Accepts front := by
  rw [accepts_iff]
  rintro ⟨drafts, holds⟩
  exact Phrase.source_not_behind_guard holds behind

section

variable {source : String} {lexemes : List Lexeme}

/-- Behind the guard of a property a brace is never expected, and the end of the input is expected
just in front of a brace, although no source ends there. So the names are right about both just if
no block may open and no brace stands there. In front of another token or of the end, every other
token with a fixed spelling is expected just if an accepted source goes on with it. -/
theorem guard_error_expected (scanned : Lexeme.ofSource source = .ok lexemes)
    (rejected : ¬ Accepts (lexemes.map Lexeme.token)) {error : ParseError} {index : Nat}
    (parsed : Root.parse source = .error error) (stands : error.StandsAt source lexemes index)
    (behind : BehindGuard ((lexemes.map Lexeme.token).take index)) :
    "'\x7b'" ∉ error.expected ∧
    ("end of input" ∈ error.expected ↔
      (lexemes.map Lexeme.token)[index]? = some (.mark .openBrace)) ∧
    ¬ Accepts ((lexemes.map Lexeme.token).take index) ∧
    (∀ token : Token, token.kind ≠ .classed → token ≠ .mark .openBrace →
      (lexemes.map Lexeme.token)[index]? ≠ some (.mark .openBrace) →
      ("'" ++ token.spelling ++ "'" ∈ error.expected ↔
        Continues ((lexemes.map Lexeme.token).take index ++ [token]))) ∧
    (TellsBlocks error.expected ((lexemes.map Lexeme.token).take index) ↔
      ¬ Continues ((lexemes.map Lexeme.token).take index ++ [.mark .openBrace]) ∧
        (lexemes.map Lexeme.token)[index]? ≠ some (.mark .openBrace)) := by
  obtain ⟨wants, expected, wanted⟩ := expected_of_rejected scanned rejected parsed stands
  have next : ((lexemes.map Lexeme.token).drop index).head? =
      (lexemes.map Lexeme.token)[index]? := List.head?_drop
  have named : ∀ token : Token, token.kind ≠ .classed →
      ("'" ++ token.spelling ++ "'" ∈ error.expected ↔
        Continues ((lexemes.map Lexeme.token).take index ++ [token]) ∧ token ≠ .mark .openBrace ∧
          (lexemes.map Lexeme.token)[index]? ≠ some (.mark .openBrace)) := by
    intro token fixed
    rw [expected, wanted.token_named fixed, wanted.sought_token fixed, continues_iff, ← next]
    exact and_congr_right' ⟨fun sought => sought behind, fun apart _ => apart⟩
  -- What was tried behind the guard counts only where no brace stands, and is no brace itself.
  have noBrace : "'\x7b'" ∉ error.expected := by
    intro member
    have brace := (named (.mark .openBrace) nofun).1 member
    exact brace.2.1 rfl
  have ending : "end of input" ∈ error.expected ↔
      (lexemes.map Lexeme.token)[index]? = some (.mark .openBrace) := by
    rw [expected, wanted.end_named, wanted.blocked behind, next]
  have unfinished := not_accepts_behind_guard behind
  refine ⟨noBrace, ending, unfinished, ?_, ?_⟩
  · intro token fixed other apart
    rw [named token fixed]
    exact ⟨And.left, fun continues => ⟨continues, other, apart⟩⟩
  · constructor
    · intro tells
      exact ⟨fun continues => noBrace (tells.brace continues),
        fun brace => unfinished (tells.ending (ending.2 brace))⟩
    · rintro ⟨stuck, apart⟩
      exact ⟨fun continues => absurd continues stuck, fun member => absurd (ending.1 member) apart⟩

end

/-- A choice with a default under a condition, and then a brace. -/
def bracedChoice : List Lexeme := [
  ⟨.keyword .choice, 0, 6⟩, ⟨.keyword .hex, 7, 10⟩, ⟨.mark .openBrace, 10, 11⟩,
  ⟨.keyword .default, 11, 18⟩, ⟨.mark .openBracket, 18, 19⟩, ⟨.mark .closeBracket, 19, 20⟩,
  ⟨.keyword .guard, 20, 22⟩, ⟨.mark .openBracket, 22, 23⟩, ⟨.mark .closeBracket, 23, 24⟩,
  ⟨.mark .openBrace, 24, 25⟩]

def bracedChoiceError : ParseError :=
  ⟨⟨24, 0, 24⟩, .unexpected (some (.mark .openBrace)) [.endOfInput]⟩

theorem braced_choice_parsed :
    Lexeme.ofSource "choice hex\x7bdefault[]if[]\x7b" = .ok bracedChoice ∧
    Root.parse "choice hex\x7bdefault[]if[]\x7b" = .error bracedChoiceError := by
  constructor <;> decide +kernel

theorem braced_choice_rejected : ¬ Accepts (bracedChoice.map Lexeme.token) := by
  rintro ⟨drafts, used, missed, accepted⟩
  have failed : Grammar.source (bracedChoice.map Lexeme.token) = .fail ⟨9, [.endOfInput]⟩ := by
    decide +kernel
  cases failed.symm.trans accepted

theorem braced_choice_behind_guard :
    BehindGuard ((bracedChoice.map Lexeme.token).take 9) :=
  ⟨[.keyword .choice, .keyword .hex, .mark .openBrace], .default, _, _, _, .default (.intro .none),
    .intro (.intro .none), rfl⟩

/-- A menu with a dependency under a condition, and nothing more. -/
def openMenu : List Lexeme := [
  ⟨.keyword .menu, 0, 4⟩, ⟨.text "", 4, 6⟩, ⟨.mark .openBrace, 6, 7⟩, ⟨.keyword .depends, 7, 14⟩,
  ⟨.keyword .on, 15, 17⟩, ⟨.mark .openBracket, 17, 18⟩, ⟨.mark .closeBracket, 18, 19⟩,
  ⟨.keyword .guard, 19, 21⟩, ⟨.mark .openBracket, 21, 22⟩, ⟨.mark .closeBracket, 22, 23⟩]

def openMenuError : ParseError := ⟨⟨23, 0, 23⟩, .unexpected none [.token (.keyword .menu),
  .token (.keyword .config), .token (.keyword .menuconfig), .token (.keyword .choice),
  .token (.keyword .guard), .token (.mark .closeBrace)]⟩

theorem open_menu_continues :
    Continues (openMenu.map Lexeme.token ++ [.mark .openBrace]) := by
  rw [continues_iff]
  have guard : Phrase.Guard _ _ := .intro (.intro .none)
  have whole := Phrase.Source.intro (.cons (.menu "" (.some (.intro (.intro .none) .none))
    (.cons (.block guard .nil) .nil)) .nil)
  exact ⟨[.mark .closeBrace, .mark .closeBrace], _, whole⟩

theorem open_menu_parsed :
    Lexeme.ofSource "menu\"\"\x7bdepends on[]if[]" = .ok openMenu ∧
    Root.parse "menu\"\"\x7bdepends on[]if[]" = .error openMenuError := by
  constructor <;> decide +kernel

theorem open_menu_behind_guard : BehindGuard (openMenu.map Lexeme.token) :=
  ⟨[.keyword .menu, .text "", .mark .openBrace], .depends, _, _, _, .depends (.intro .none),
    .intro (.intro .none), rfl⟩

/-- In a choice the brace is told to be the end that was missed. At the end of a menu it is told
that the menu may be closed, but not that a block may open. -/
theorem guard_error_expected_of_blocks :
    (Root.parse "choice hex\x7bdefault[]if[]\x7b" = .error bracedChoiceError ∧
      "end of input" ∈ bracedChoiceError.expected ∧
      ¬ TellsBlocks bracedChoiceError.expected ((bracedChoice.map Lexeme.token).take 9)) ∧
    Root.parse "menu\"\"\x7bdepends on[]if[]" = .error openMenuError ∧
      Continues (openMenu.map Lexeme.token ++ [.mark .closeBrace]) ∧
      ¬ TellsBlocks openMenuError.expected (openMenu.map Lexeme.token) := by
  constructor
  · obtain ⟨scanned, parsed⟩ := braced_choice_parsed
    obtain ⟨-, ending, -, -, tells⟩ := guard_error_expected scanned braced_choice_rejected parsed
      (.inl ⟨_, rfl, rfl, rfl⟩) braced_choice_behind_guard
    exact ⟨parsed, ending.2 rfl, fun told => (tells.1 told).2 rfl⟩
  · obtain ⟨scanned, parsed⟩ := open_menu_parsed
    obtain ⟨-, -, -, named, tells⟩ := guard_error_expected scanned
      (not_accepts_behind_guard open_menu_behind_guard) parsed (.inr ⟨rfl, rfl, rfl⟩)
      open_menu_behind_guard
    have close := (named (.mark .closeBrace) nofun nofun nofun).1 (by decide)
    exact ⟨parsed, close, fun told => (tells.1 told).1 open_menu_continues⟩

/-- In a menu the brace of a block is missing from what is expected; in a choice the end is expected
where no source ends. -/
theorem not_tells_blocks :
    (Root.parse "menu\"\"\x7bdepends on[]if[]" = .error openMenuError ∧
      openMenuError.StandsAt "menu\"\"\x7bdepends on[]if[]" openMenu 10 ∧
      BehindGuard (openMenu.map Lexeme.token) ∧
      Continues (openMenu.map Lexeme.token ++ [.mark .openBrace]) ∧
      "'\x7b'" ∉ openMenuError.expected) ∧
    Root.parse "choice hex\x7bdefault[]if[]\x7b" = .error bracedChoiceError ∧
      bracedChoiceError.StandsAt "choice hex\x7bdefault[]if[]\x7b" bracedChoice 9 ∧
      BehindGuard ((bracedChoice.map Lexeme.token).take 9) ∧
      "end of input" ∈ bracedChoiceError.expected ∧
      ¬ Accepts ((bracedChoice.map Lexeme.token).take 9) :=
  ⟨⟨open_menu_parsed.2, .inr ⟨rfl, rfl, rfl⟩, open_menu_behind_guard, open_menu_continues,
    by decide⟩, braced_choice_parsed.2, .inl ⟨_, rfl, rfl, rfl⟩, braced_choice_behind_guard,
    by decide, not_accepts_behind_guard braced_choice_behind_guard⟩

end KernelMenu

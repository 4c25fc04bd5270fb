import KernelMenu.Proofs.SymbolPhrase

/-!
The rules for symbols read the symbols of the grammar, and so does the rule for a whole source.
-/

namespace KernelMenu.Grammar

open KernelMenu.Grammar.Language

variable {Value Value' : Type}

namespace Phrase

theorem source_iff {word : List Token} {drafts : List Draft} :
    Source word drafts ↔ ((Star Symbol).map List.flatten) word drafts := by
  constructor
  · intro holds
    cases holds with
    | intro parts => exact ⟨_, parts, rfl⟩
  · rintro ⟨parts, holds, rfl⟩
    exact .intro holds

theorem source_nil : Source [] [] := .intro .nil

theorem source_braced {word : List Token} {drafts : List Draft} (holds : Source word drafts) :
    Braced word := by
  cases holds with
  | intro parts =>
      induction parts with
      | nil => exact .nil
      | cons first rest induction => exact (symbol_braced first).append induction

/-- No row of symbols ends with the guard of a property. -/
theorem source_not_behind_guard {word : List Token} {drafts : List Draft}
    (holds : Source word drafts) : ¬ BehindGuard word := by
  obtain ⟨parts, symbols, -⟩ := source_iff.1 holds
  suffices last : word = [] ∨ ∃ front token, word = front ++ [token] ∧
      token ≠ .mark .closeBracket by
    rcases last with rfl | ⟨front, token, rfl, other⟩
    · exact not_behind_guard_nil
    · exact not_behind_guard_of_last other
  clear holds
  induction symbols with
  | nil => exact .inl rfl
  | @cons first _ _ _ symbol _ induction =>
      right
      rcases induction with rfl | ⟨front, token, rfl, other⟩
      · rw [List.append_nil]
        exact symbol_last symbol
      · exact ⟨first ++ front, token, (List.append_assoc _ _ _).symm, other⟩

theorem source_first {token : Token} {rest : List Token} {drafts : List Draft}
    (holds : Source (token :: rest) drafts) : token.kind ∈ symbolKinds := by
  obtain ⟨parts, holds', -⟩ := source_iff.1 holds
  rcases star_nil_or_cons holds' with ⟨none, -⟩ | ⟨first, others, value, values, same, -, symbol, -⟩
  · exact nomatch none
  · obtain ⟨other, first, rfl, known⟩ := symbol_first symbol
    obtain ⟨rfl, -⟩ := List.cons.inj same
    exact known

theorem source_viable_first {token : Token} (viable : Language.Viable Source [token]) :
    token.kind ∈ symbolKinds := by
  obtain ⟨rest, drafts, holds⟩ := viable
  exact source_first holds

theorem source_head {after : List Token} {drafts : List Draft}
    (holds : Source (.keyword .guard :: after) drafts) : ∃ guard more condition,
      .keyword .guard :: after = guard ++ .mark .openBrace :: more ∧ Guard guard condition := by
  obtain ⟨parts, holds', -⟩ := source_iff.1 holds
  rcases star_nil_or_cons holds' with ⟨none, -⟩ | ⟨first, rest, value, values, same, -, symbol, -⟩
  · exact nomatch none
  · obtain ⟨token, first, rfl, -⟩ := symbol_first symbol
    obtain ⟨rfl, rfl⟩ := List.cons.inj same
    obtain ⟨guard, more, condition, same', guard'⟩ := symbol_head symbol
    have whole := congrArg (· ++ rest) same'
    exact ⟨guard, more ++ rest, condition, by simpa using whole, guard'⟩

end Phrase

theorem source_blocks : Blocks Phrase.Source where
  plain token viable := (by decide : ∀ kind ∈ Phrase.symbolKinds, kind ∉ Phrase.payloadKinds) _
    (Phrase.source_viable_first viable)
  brace viable := absurd (Phrase.source_viable_first viable) (by decide)
  head _ _ := Phrase.source_head
  block := by
    intro guard condition holds
    have whole : Phrase.Source (guard ++ .mark .openBrace :: [] ++ [.mark .closeBrace] ++ []) _ :=
      .intro (.cons (.block holds .nil) .nil)
    exact ⟨[.mark .closeBrace], _, by simpa using whole⟩

/-- All kinds of tokens but the closing brace. -/
def openKinds : List Kind :=
  .classed :: Keyword.all.map .keyword ++ [.mark .openBrace, .mark .openBracket,
    .mark .closeBracket, .mark .openParen, .mark .closeParen, .mark .and, .mark .or, .mark .not,
    .mark .eq, .mark .ne]

theorem kind_mem_open {token : Token} (other : token ≠ .mark .closeBrace) :
    token.kind ∈ openKinds := by
  cases token with
  | keyword word => cases word <;> decide
  | mark sign => cases sign <;> first | decide | exact absurd rfl other
  | text | hex | int | ident => exact List.mem_cons_self

/-- Where braces are balanced, a closing brace never goes on behind a whole word. -/
theorem Shaped.of_braced {language : Language Value} {shape : Shape}
    (inhabited : language.Inhabited)
    (first : ∀ token, language.Viable [token] → token.kind ∈ shape.firsts)
    (braced : ∀ word value, language word value → Phrase.Braced word)
    (nexts : shape.nexts = openKinds) (empty : shape.empty = true) (guards : shape.guards = true) :
    Shaped language shape where
  inhabited := inhabited
  first := first
  next := by
    rintro word value token holds ⟨rest, value', holds'⟩
    rw [nexts]
    apply kind_mem_open
    rintro rfl
    have whole := braced _ _ holds'
    rw [List.append_assoc] at whole
    exact (braced word value holds).not_closing whole (by decide)
  filled none := by simp [empty] at none
  guardless none := by simp [guards] at none

def symbolsShape : Shape := ⟨Phrase.symbolKinds, openKinds, true, true⟩

theorem source_shaped : Shaped Phrase.Source symbolsShape :=
  .of_braced ⟨_, _, Phrase.source_nil⟩ (fun _ => Phrase.source_viable_first)
    (fun _ _ => Phrase.source_braced) rfl rfl rfl

theorem viable_both_first {first : Language Value} {second : Language Value'} {token : Token}
    (viable : (first.both second).Viable [token]) :
    first.Viable [token] ∨ second.Viable [token] := by
  rcases viable.of_both with inFirst | ⟨front, back, value, same, filled, -, inSecond⟩
  · exact .inl inFirst
  · rcases front with _ | ⟨other, front⟩
    · rw [List.nil_append] at same
      exact .inr (same ▸ inSecond)
    · exact absurd (List.append_eq_nil_iff.1 (List.cons.inj same).2.symm).2 filled

section Clauses

theorem property_follows : Follows Phrase.PropertyClause (Star Phrase.PropertyClause) := by
  refine (property_reader 0).shaped.follows_of_plain (fun _ => property_star_first) (by decide)
    (by decide) ?_ ?_
  · exact fun member => absurd member (by decide)
  · exact fun member => absurd member (by decide)

theorem inherited_follows : Follows (Star Phrase.PropertyClause) (Maybe Phrase.Inherited) := by
  have shaped := (property_reader 0).shaped.star property_follows rfl
  refine shaped.follows_of_plain (fun _ => inherited_maybe_first) (by decide) (by decide) ?_ ?_
  · exact fun member => absurd member (by decide)
  · exact fun member => absurd member (by decide)

def entryClausesShape : Shape := propertyShape.repeated.both
  (Shape.repeated ⟨[.keyword .inherited], [], false, false⟩)

theorem entry_clauses_reader (bound : Nat) :
    Reader bound (property.many.both inheritedClause.optional) EntryClauses entryClausesShape := by
  have properties := (property_reader bound).many_of_follows rfl property_follows
  have inherited := (inherited_reader bound).optional rfl
  exact properties.both_of_follows inherited inherited_follows

theorem choice_follows : Follows Phrase.ChoiceClause (Star Phrase.ChoiceClause) := by
  refine (choice_property_reader 0).shaped.follows_of_plain
    (fun _ => (choice_property_reader 0).shaped.star_first rfl) (by decide) (by decide) ?_ ?_
  · exact fun member => absurd member (by decide)
  · exact fun member => absurd member (by decide)

theorem Reader.before_symbols {bound : Nat} {rule : Rule Value} {rule' : Rule (List Draft)}
    {language : Language Value} {shape : Shape} (reader : Reader bound rule language shape)
    (reader' : Reader bound rule' Phrase.Source symbolsShape) (clauses : Clauses language)
    (only : ∀ kind ∈ shape.nexts, kind ∈ Phrase.symbolKinds → kind = .keyword .guard) :
    Reader bound (rule.both rule') (language.both Phrase.Source)
      ⟨shape.firsts ++ Phrase.symbolKinds, openKinds, true, true⟩ where
  reads tokens short := by
    refine (reader.reads tokens short).both_of_clauses clauses source_blocks
      source_shaped.inhabited ?_ ?_
    · intro word value token holds viable viable'
      exact Token.eq_keyword_of_kind (only _ (reader.shaped.next word value token holds viable)
        (source_shaped.first token viable'))
    · rintro front back value rfl -
      refine reader'.reads back (Nat.lt_of_le_of_lt ?_ short)
      simp
  shaped := by
    refine .of_braced ?_ ?_ ?_ rfl rfl rfl
    · obtain ⟨word, value, holds⟩ := reader.shaped.inhabited
      exact ⟨_, (value, []), word, [], rfl, holds, Phrase.source_nil⟩
    · intro token viable
      rcases viable_both_first viable with inFirst | inSecond
      · exact List.mem_append_left _ (reader.shaped.first token inFirst)
      · exact List.mem_append_right _ (source_shaped.first token inSecond)
    · rintro word pair ⟨front, back, rfl, holds, holds'⟩
      exact (Phrase.braced_clauses clauses holds).append (Phrase.source_braced holds')

end Clauses

theorem token_follows {wanted : Token} {second : Language Value}
    (fixed : wanted.kind ≠ .classed) (other : wanted.kind ∉ Phrase.nameKinds) :
    Follows (token wanted) second where
  apart word value token token' holds viable :=
    absurd viable ((Reader.exactly 0 fixed).shaped.ended rfl word value token holds)
  clear := by
    intro word value spill holds _ _ behind
    obtain ⟨rfl, -⟩ := token_iff.1 holds
    exact behind.of_cons other
  brace := by
    intro word value holds behind
    obtain ⟨rfl, -⟩ := token_iff.1 holds
    exact absurd behind.one_lt_length (Nat.lt_irrefl 1)

def blockShape : Shape := ⟨[.mark .openBrace], [], false, true⟩

/-- Only the braces around a block show from outside. -/
theorem block_reader {bound : Nat} {rule : Rule Value} {language : Language Value} {shape : Shape}
    (reader : Reader bound rule language shape) (apart : .mark .closeBrace ∉ shape.nexts)
    (guards : shape.guards = true) :
    Reader (bound + 1) (block rule) (language.enclosed .openBrace .closeBrace) blockShape := by
  have first := (mark_reader 0 .openBrace).shaped
  have opens : Follows (token (.mark .openBrace)) language := token_follows nofun (by decide)
  have closes :
      Follows ((token (.mark .openBrace)).before language) (token (.mark .closeBrace)) := by
    refine (first.both reader.shaped opens).map.follows_of_plain
      (mark_reader 0 .closeBrace).shaped.first (Shape.apart_closing apart) (by decide) ?_ ?_
    · exact fun member => absurd member (by decide)
    · exact fun member => absurd member (by decide)
  have whole := reader.enclosed .openBrace .closeBrace opens closes
  have shown : ((Shape.one (.mark .openBrace)).both shape).both (.one (.mark .closeBrace)) =
      blockShape := by
    simp [Shape.both, Shape.one, blockShape, guards]
  rwa [shown] at whole

section Entry

theorem value_type_reader (bound : Nat) :
    Reader bound valueType (fun word type => word = [.keyword type.keyword]) (.one .classed) := by
  apply Reader.classified bound
  · intro token
    constructor
    · rintro ⟨type, rfl⟩
      cases type <;> rfl
    · intro found
      cases token with
      | keyword word =>
          cases word with
          | boolean => exact ⟨.boolean, rfl⟩
          | tristate => exact ⟨.tristate, rfl⟩
          | integer => exact ⟨.integer, rfl⟩
          | hex => exact ⟨.hex, rfl⟩
          | string => exact ⟨.string, rfl⟩
          | _ => exact nomatch found
      | mark | text | hex | int | ident => exact nomatch found
  · intro word type
    constructor
    · rintro rfl
      exact ⟨_, rfl, by cases type <;> rfl⟩
    · rintro ⟨token, rfl, meant⟩
      cases token with
      | keyword word => cases word <;> cases meant <;> rfl
      | mark | text | hex | int | ident => exact nomatch meant

def HeaderPhrase : Language ((Bool × String) × ValueType) := fun word header =>
  Phrase.Header word header.1.1 header.1.2 header.2

theorem header_reader (bound : Nat) :
    Reader bound ((entryKeyword.both identifier).both valueType) HeaderPhrase
      ⟨[.keyword .config, .keyword .menuconfig], [], false, false⟩ := by
  have config :=
    (keyword_reader bound (show (Token.keyword .config).kind ≠ .classed from nofun)).map
      fun _ => false
  have menuconfig := (keyword_reader bound
    (show (Token.keyword .menuconfig).kind ≠ .classed from nofun)).map fun _ => true
  have word : Reader bound entryKeyword _ _ := config.orElse menuconfig (by decide) rfl rfl
  have named := word.both (identifier_reader bound) (by decide) rfl rfl
  apply (named.both (value_type_reader bound) (by decide) rfl rfl).congr
  rintro word ⟨⟨isMenu, name⟩, type⟩
  constructor
  · intro holds
    cases holds with
    | config =>
        exact ⟨[_, _], [_], rfl, ⟨[_], [_], rfl, .inl ⟨_, token_iff.2 ⟨rfl, rfl⟩, rfl⟩, rfl⟩, rfl⟩
    | menuconfig =>
        exact ⟨[_, _], [_], rfl, ⟨[_], [_], rfl, .inr ⟨_, token_iff.2 ⟨rfl, rfl⟩, rfl⟩, rfl⟩, rfl⟩
  · rintro ⟨front, last, rfl, ⟨start, middle, rfl, holds, named⟩, typed⟩
    dsimp only at holds named typed
    subst named typed
    rcases holds with ⟨_, holds, rfl⟩ | ⟨_, holds, rfl⟩
    · obtain ⟨rfl, -⟩ := token_iff.1 holds
      exact .config name type
    · obtain ⟨rfl, -⟩ := token_iff.1 holds
      exact .menuconfig name type

abbrev EntryBody : Language ((List Property × Option Expr) × List Draft) :=
  EntryClauses.both Phrase.Source

theorem Phrase.config_iff {word : List Token} {entry : ConfigClauses × List Draft} :
    Config word entry ↔ ((HeaderPhrase.both (Maybe (EntryBody.enclosed .openBrace .closeBrace))).map
      fun
        | (((isMenu, name), type), some ((properties, inherited), children)) =>
            (⟨name, isMenu, type, properties, inherited⟩, children)
        | (((isMenu, name), type), none) => (⟨name, isMenu, type, [], none⟩, [])) word entry := by
  constructor
  · intro holds
    cases holds with
    | @bare header isMenu name type holds =>
        exact ⟨(((isMenu, name), type), none), ⟨_, [], (List.append_nil _).symm, holds, .none⟩, rfl⟩
    | @body header clauses last symbols isMenu name type properties inherited children holds
        clauses' last' symbols' =>
        refine ⟨(((isMenu, name), type), some ((properties, inherited), children.flatten)),
          ⟨header, .mark .openBrace :: (clauses ++ last ++ symbols) ++ [.mark .closeBrace], ?_,
            holds, .some (enclosed_iff.2
              ⟨_, rfl, _, _, rfl, ⟨_, _, rfl, clauses', last'⟩, .intro symbols'⟩)⟩,
          rfl⟩
        simp
  · rintro ⟨⟨⟨⟨isMenu, name⟩, type⟩, body⟩, ⟨front, back, rfl, holds, holds'⟩, rfl⟩
    dsimp only at holds holds'
    cases holds' with
    | none => simpa using Config.bare holds
    | @some _ body inBraces =>
        obtain ⟨⟨properties, inherited⟩, children⟩ := body
        obtain ⟨inner, rfl, front', symbols, rfl, ⟨clauses, last, rfl, clauses', last'⟩,
          symbols'⟩ := enclosed_iff.1 inBraces
        obtain ⟨parts, inSymbols, rfl⟩ := source_iff.1 symbols'
        simpa using Config.body holds clauses' last' inSymbols

end Entry

end KernelMenu.Grammar

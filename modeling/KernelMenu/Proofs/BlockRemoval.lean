import KernelMenu.Proofs.SymbolPlace
import Mathlib.Logic.Relation

/-!
Conditional blocks can be put around any row of symbols and taken away again, with whatever
condition: what a source stands for stays the same. A source without any of its blocks can always be
reached.
-/

namespace KernelMenu.Grammar.Phrase

open Relation

/-- A row of symbols in the first list stands in a conditional block in the second one. -/
inductive Wraps : List Token → List Token → Prop
  | intro {front run back guard : List Token} {condition : Expr} {drafts : List Draft} :
      Place .symbols front back → Source run drafts → Guard guard condition →
      Wraps (front ++ run ++ back)
        (front ++ (guard ++ .mark .openBrace :: run ++ [.mark .closeBrace]) ++ back)

theorem Wraps.same {words wrapped : List Token} (wraps : Wraps words wrapped) :
    Row.symbols.Same words wrapped := by
  obtain ⟨place, run, guarded⟩ := wraps
  exact place.same ⟨_, run, source_of_block guarded run⟩

theorem source_of_wraps {words words' : List Token} (related : EqvGen Wraps words words') :
    ∀ drafts, Source words drafts ↔ Source words' drafts := by
  induction related with
  | rel words wrapped wraps =>
      obtain ⟨drafts, holds, holds'⟩ := wraps.same
      refine fun others => ⟨fun also => ?_, fun also => ?_⟩
      · rwa [source_unique also holds]
      · rwa [source_unique also holds']
  | refl => exact fun _ => Iff.rfl
  | symm _ _ _ induction => exact fun drafts => (induction drafts).symm
  | trans _ _ _ _ _ first second => exact fun drafts => (first drafts).trans (second drafts)

/-- The first word becomes the second one by wrapping symbols, wherever it stands in a source. -/
def WrapsInside (row : Row) (word word' : List Token) : Prop :=
  ∀ front back, Place row front back →
    ReflTransGen Wraps (front ++ word ++ back) (front ++ word' ++ back)

namespace WrapsInside

variable {row : Row} {word word' : List Token}

theorem refl (row : Row) (word : List Token) : WrapsInside row word word :=
  fun _ _ _ => .refl

theorem append {front front' back back' : List Token} (first : WrapsInside row front front')
    (second : WrapsInside row back back') (holds : row.Holds front') (holds' : row.Holds back) :
    WrapsInside row (front ++ back) (front' ++ back') := by
  intro before after place
  have empty : row.Holds [] := by
    cases row with
    | symbols => exact ⟨[], source_nil⟩
    | options => exact ⟨[], .nil⟩
  have left := first _ _ (place.beside empty holds')
  have right := second _ _ (place.beside holds empty)
  simp only [List.append_nil, List.nil_append, List.append_assoc] at left right ⊢
  exact left.trans right

theorem menu (title : String) {depends : List Token} {condition : Option Expr}
    (dependency : Maybe Dependency depends condition) (inside : WrapsInside .symbols word word') :
    WrapsInside .symbols
      (.keyword .menu :: .text title :: .mark .openBrace :: depends ++ word ++ [.mark .closeBrace])
      (.keyword .menu :: .text title :: .mark .openBrace :: depends ++ word' ++
        [.mark .closeBrace]) := by
  intro front back place
  have whole := inside _ _ (.menu title place dependency)
  simpa only [List.append_assoc, List.cons_append, List.nil_append] using whole

theorem choice (type : ValueType) (isOptional : Bool) {clauses : List Token}
    {properties : List Property} (holds : Star ChoiceClause clauses properties)
    (inside : WrapsInside .options word word') :
    WrapsInside .symbols
      (.keyword .choice :: .keyword type.keyword ::
        (if isOptional then [.keyword .optional] else []) ++
        .mark .openBrace :: clauses ++ word ++ [.mark .closeBrace])
      (.keyword .choice :: .keyword type.keyword ::
        (if isOptional then [.keyword .optional] else []) ++
        .mark .openBrace :: clauses ++ word' ++ [.mark .closeBrace]) := by
  intro front back place
  have whole := inside _ _ (.choice type isOptional place holds)
  simpa only [List.append_assoc, List.cons_append, List.nil_append] using whole

theorem entry {header clauses last : List Token} {isMenu : Bool} {name : String} {type : ValueType}
    {properties : List Property} {inherited : Option Expr} (head : Header header isMenu name type)
    (holds : Star PropertyClause clauses properties) (holds' : Maybe Inherited last inherited)
    (inside : WrapsInside .symbols word word') (row : Row) :
    WrapsInside row (header ++ .mark .openBrace :: clauses ++ last ++ word ++ [.mark .closeBrace])
      (header ++ .mark .openBrace :: clauses ++ last ++ word' ++ [.mark .closeBrace]) := by
  intro front back place
  have whole := inside _ _ (.entry place head holds holds')
  simpa only [List.append_assoc, List.cons_append, List.nil_append] using whole

theorem block {guard : List Token} {condition : Expr} {drafts : List Draft}
    (guarded : Guard guard condition) (holds : Source word' drafts)
    (inside : WrapsInside .symbols word word') :
    WrapsInside .symbols word (guard ++ .mark .openBrace :: word' ++ [.mark .closeBrace]) :=
  fun front back place => (inside front back place).tail (.intro place holds guarded)

end WrapsInside

/-- No brace stands in front or behind a bracket. -/
inductive Unconditional : List Token → Prop
  | nil : Unconditional []
  | cons {token : Token} {word : List Token} :
      token ≠ .mark .openBrace → Unconditional word → Unconditional (token :: word)
  | brace {token : Token} {word : List Token} :
      token ≠ .mark .openBrace → token ≠ .mark .closeBracket → Unconditional word →
      Unconditional (token :: .mark .openBrace :: word)

namespace Unconditional

variable {front back word : List Token}

theorem append (first : Unconditional front) (second : Unconditional back) :
    Unconditional (front ++ back) := by
  induction first with
  | nil => exact second
  | cons other _ induction => exact .cons other induction
  | brace other plain _ induction => exact .brace other plain induction

theorem of_within {kinds : List Kind} (within : Within kinds word)
    (braceless : .mark .openBrace ∉ kinds) : Unconditional word := by
  induction word with
  | nil => exact .nil
  | cons token word induction =>
      refine .cons ?_ (induction fun other member => within other (List.mem_cons_of_mem _ member))
      rintro rfl
      exact braceless (within _ List.mem_cons_self)

theorem not_behind_bracket (holds : Unconditional word) :
    word ≠ front ++ .mark .closeBracket :: .mark .openBrace :: back := by
  induction holds generalizing front with
  | nil => simp
  | @cons token word other rest induction =>
      cases front with
      | nil =>
          rintro same
          obtain ⟨rfl, rfl⟩ := List.cons.inj same
          cases rest with
          | cons other' => exact other' rfl
          | brace other' => exact other' rfl
      | cons token' front =>
          intro same
          exact induction (List.cons.inj same).2
  | brace other plain _ induction =>
      cases front with
      | nil => exact fun same => plain (List.cons.inj same).1
      | cons token' front =>
          cases front with
          | nil => exact fun same => nomatch (List.cons.inj same).2
          | cons token'' front =>
              intro same
              exact induction (List.cons.inj (List.cons.inj same).2).2

theorem not_guard {guard : List Token} {condition : Expr}
    (holds : Unconditional (front ++ guard ++ .mark .openBrace :: back)) :
    ¬ Guard guard condition := by
  intro guarded
  cases guarded with
  | intro bracketed =>
      cases bracketed with
      | @intro inner _ _ =>
          have split : front ++ .keyword .guard :: (.mark .openBracket :: inner ++
              [.mark .closeBracket]) ++ .mark .openBrace :: back =
                (front ++ .keyword .guard :: .mark .openBracket :: inner) ++
                  .mark .closeBracket :: .mark .openBrace :: back := by simp
          exact holds.not_behind_bracket split

theorem of_clauses {Value : Type} {language : Language Value} {value : Value}
    (clauses : Clauses language) (holds : language word value) : Unconditional word :=
  of_within (clauses.within word value holds) (by decide)

theorem closed (holds : Unconditional word) : Unconditional (word ++ [.mark .closeBrace]) :=
  holds.append (.cons nofun .nil)

theorem behind_header {header : List Token} {isMenu : Bool} {name : String} {type : ValueType}
    (head : Header header isMenu name type) (holds : Unconditional word) :
    Unconditional (header ++ .mark .openBrace :: word) := by
  cases head with
  | config | menuconfig => exact .cons nofun (.cons nofun (.brace nofun nofun holds))

theorem behind_title (title : String) (holds : Unconditional word) :
    Unconditional (.keyword .menu :: .text title :: .mark .openBrace :: word) :=
  .cons nofun (.brace nofun nofun holds)

theorem behind_choice (type : ValueType) (isOptional : Bool) (holds : Unconditional word) :
    Unconditional (.keyword .choice :: .keyword type.keyword ::
      (if isOptional then [.keyword .optional] else []) ++ .mark .openBrace :: word) := by
  cases isOptional with
  | false => exact .cons nofun (.brace nofun nofun holds)
  | true => exact .cons nofun (.cons nofun (.brace nofun nofun holds))

end Unconditional

/-- The values of words without blocks, for all that the words become by wrapping symbols. -/
def WithoutBlocks {Value : Type} (row : Row) (language : Language Value) : Language Value :=
  fun word value => ∃ plain, language plain value ∧ Unconditional plain ∧ WrapsInside row plain word

theorem WithoutBlocks.append {front back : List Token} {drafts drafts' : List Draft}
    (first : WithoutBlocks .symbols Source front drafts) (holds : Source front drafts)
    (second : WithoutBlocks .symbols Source back drafts') :
    WithoutBlocks .symbols Source (front ++ back) (drafts ++ drafts') := by
  obtain ⟨plain, whole, free, inside⟩ := first
  obtain ⟨plain', whole', free', inside'⟩ := second
  exact ⟨plain ++ plain', source_append whole whole', free.append free',
    inside.append inside' ⟨_, holds⟩ ⟨_, whole'⟩⟩

theorem symbol_without_blocks {word : List Token} {drafts : List Draft}
    (holds : Symbol word drafts) : WithoutBlocks .symbols Source word drafts := by
  -- Entries, symbols, rows of symbols and options are derived together. An entry is freed of its
  -- blocks for both rows it may stand in.
  refine @Symbol.rec (fun word entry _ => ∀ row, WithoutBlocks row Config word entry)
    (fun word drafts _ => WithoutBlocks .symbols Source word drafts)
    (fun word parts _ => WithoutBlocks .symbols Source word parts.flatten)
    (fun word options _ => WithoutBlocks .options (Star Config) word options)
    ?_ ?_ ?_ ?_ ?_ ?_ ⟨[], source_nil, .nil, .refl _ _⟩ ?_ ⟨[], .nil, .nil, .refl _ _⟩ ?_
    word drafts holds
  · intro header isMenu name type head row
    exact ⟨header, .bare head, .of_within (header_within head) (by decide), .refl _ _⟩
  · intro header clauses last symbols isMenu name type properties inherited children head clauses'
      last' _ ⟨plain, holds, free, inside⟩ row
    refine ⟨_, config_of_source head clauses' last' holds, ?_,
      .entry head clauses' last' inside row⟩
    have front : Unconditional (clauses ++ last) := .of_clauses entry_clauses
      (show EntryClauses _ (properties, inherited) from ⟨_, _, rfl, clauses', last'⟩)
    simpa using (front.append free).closed.behind_header head
  · intro title depends symbols condition children dependency _ ⟨plain, holds, free, inside⟩
    refine ⟨_, source_of_menu title dependency holds, ?_, .menu title dependency inside⟩
    have front : Unconditional depends := .of_clauses dependency_clauses.maybe dependency
    simpa using (front.append free).closed.behind_title title
  · intro word head children _ below
    obtain ⟨plain, holds, free, inside⟩ := below .symbols
    exact ⟨plain, source_of_symbol (.config holds), free, inside⟩
  · intro type isOptional clauses entries properties options clauses' _ ⟨plain, holds, free, inside⟩
    refine ⟨_, source_of_symbol (.choice type isOptional clauses' holds), ?_,
      .choice type isOptional clauses' inside⟩
    have front : Unconditional clauses := .of_clauses choice_star_clauses clauses'
    simpa using (front.append free).closed.behind_choice type isOptional
  · intro guard symbols condition children guarded symbols' ⟨plain, holds, free, inside⟩
    -- The block itself goes: what is left of its inside stands in its place.
    exact ⟨plain, holds, free, inside.block guarded (.intro symbols')⟩
  · exact fun first _ below others => below.append (source_of_symbol first) others
  · intro word words entry others first _ below ⟨plain', holds', free', inside'⟩
    obtain ⟨plain, holds, free, inside⟩ := below .options
    exact ⟨plain ++ plain', .cons holds holds', free.append free',
      inside.append inside' ⟨_, Language.star_one first⟩ ⟨_, holds'⟩⟩

/-- All blocks of a source can be taken away. -/
theorem source_without_blocks {word : List Token} {drafts : List Draft}
    (holds : Source word drafts) : ∃ plain, Source plain drafts ∧ Unconditional plain ∧
      ReflTransGen Wraps plain word := by
  suffices without : WithoutBlocks .symbols Source word drafts by
    obtain ⟨plain, holds', free, inside⟩ := without
    have whole := inside [] [] .source
    simp only [List.nil_append, List.append_nil] at whole
    exact ⟨plain, holds', free, whole⟩
  obtain @⟨_, parts, symbols⟩ := holds
  induction symbols with
  | nil => exact ⟨[], source_nil, .nil, .refl _ _⟩
  | cons first _ induction =>
      exact (symbol_without_blocks first).append (source_of_symbol first) induction

end KernelMenu.Grammar.Phrase

import KernelMenu.Proofs.SymbolReading

/-!
The rules for entries, menus, choices and conditional blocks, and by recursion the rule for all
symbols of a source.
-/

namespace KernelMenu.Grammar

open KernelMenu.Grammar.Language

variable {Value Value' : Type} {bound : Nat}

theorem Reader.before_block {rule : Rule Value} {rule' : Rule Value'} {language : Language Value}
    {language' : Language Value'} {shape shape' : Shape}
    (reader : Reader bound rule language shape) (reader' : Reader bound rule' language' shape')
    (firsts : shape'.firsts = [.mark .openBrace]) (apart : .mark .openBrace ∉ shape.nexts)
    (none : shape.guards = false) :
    Reader bound (rule.both rule') (language.both language') (shape.both shape') := by
  apply reader.both_of_follows reader'
  apply reader.shaped.follows_of_plain reader'.shaped.first
  · intro kind member same
    rw [firsts] at same
    rw [List.mem_singleton.1 same] at member
    exact apart member
  · intro kind member
    rw [firsts] at member
    rw [List.mem_singleton.1 member]
    decide
  · intro member
    rw [firsts] at member
    exact absurd member (by decide)
  · exact fun _ word value holds => reader.shaped.not_behind_guard none (viable_of_word holds)

section Recursion

variable {symbols : Rule (List Draft)}

def entryShape : Shape :=
  ⟨[.keyword .config, .keyword .menuconfig], [.mark .openBrace], false, true⟩

theorem entry_reader (reader : Reader bound symbols Phrase.Source symbolsShape) :
    Reader (bound + 1) (entry symbols) Phrase.Config entryShape := by
  have inner := (entry_clauses_reader bound).before_symbols reader entry_clauses (by decide)
  have body := (block_reader inner (by decide) rfl).optional rfl
  have whole := (header_reader (bound + 1)).before_block body rfl (by decide) rfl
  exact (whole.map _).congr fun _ _ => Phrase.config_iff

theorem config_follows (shaped : Shaped Phrase.Config entryShape) :
    Follows Phrase.Config (Star Phrase.Config) := by
  refine shaped.follows_of_plain (fun _ => shaped.star_first rfl) (by decide) (by decide) ?_ ?_
  · exact fun member => absurd member (by decide)
  · exact fun member => absurd member (by decide)

def MenuPhrase : Language Draft :=
  (((token (.keyword .menu)).before fun word title => word = [.text title]).both
    (((Maybe Phrase.Dependency).both Phrase.Source).enclosed .openBrace .closeBrace)).map
    fun (title, dependsOn, children) => .menu ⟨title, dependsOn⟩ children

theorem menu_reader (reader : Reader bound symbols Phrase.Source symbolsShape) :
    Reader (bound + 1) (menuNode symbols) MenuPhrase ⟨[.keyword .menu], [], false, true⟩ := by
  have inner := ((dependency_reader bound).optional rfl).before_symbols reader
    dependency_clauses.maybe (by decide)
  have word := keyword_reader (bound + 1) (show (Token.keyword .menu).kind ≠ .classed from nofun)
  have header := (word.both (quoted_text_reader (bound + 1)) nofun rfl rfl).map Prod.snd
  exact (header.before_block (block_reader inner (by decide) rfl) rfl (by decide) rfl).map _

def ChoiceHeader : Language (ValueType × Bool) :=
  ((token (.keyword .choice)).before fun word type => word = [.keyword type.keyword]).both
    ((Maybe (token (.keyword .optional))).map Option.isSome)

def ChoicePhrase : Language Draft :=
  (ChoiceHeader.both
    (((Star Phrase.ChoiceClause).both (Star Phrase.Config)).enclosed .openBrace .closeBrace)).map
    fun ((type, isOptional), (properties, options)) =>
      .choice ⟨type, isOptional, properties⟩ options

theorem choice_reader (reader : Reader bound symbols Phrase.Source symbolsShape) :
    Reader (bound + 1) (choiceNode symbols) ChoicePhrase ⟨[.keyword .choice], [], false, true⟩ := by
  have entries := (entry_reader reader).mono (Nat.le_succ bound)
  have options := entries.many_of_follows rfl (config_follows entries.shaped)
  have clauses := (choice_property_reader bound).many_of_follows rfl choice_follows
  have follows : Follows (Star Phrase.ChoiceClause) (Star Phrase.Config) := by
    apply clauses.shaped.follows_of_plain options.shaped.first (by decide) (by decide)
    · exact fun member => absurd member (by decide)
    · exact fun member => absurd member (by decide)
  have inner := clauses.both_of_follows options follows
  have word := keyword_reader (bound + 1) (show (Token.keyword .choice).kind ≠ .classed from nofun)
  have optional := ((keyword_reader (bound + 1)
    (show (Token.keyword .optional).kind ≠ .classed from nofun)).optional rfl).map Option.isSome
  have typed := (word.both (value_type_reader (bound + 1)) nofun rfl rfl).map Prod.snd
  have header := typed.both optional (by decide) rfl rfl
  exact (header.before_block (block_reader inner (by decide) rfl) rfl (by decide) rfl).map _

/-- A conditional block, of which only the symbols remain. -/
def BlockPhrase : Language (List Draft) :=
  (token (.keyword .guard)).before
    (Phrase.Bracketed.before (Phrase.Source.enclosed .openBrace .closeBrace))

theorem conditional_reader (reader : Reader bound symbols Phrase.Source symbolsShape) :
    Reader (bound + 1) (conditionalBlock symbols) BlockPhrase
      ⟨[.keyword .guard], [], false, true⟩ := by
  have block := block_reader reader (by decide) rfl
  have guarded :=
    ((bracketed_reader (bound + 1)).before_block block rfl (by decide) rfl).map Prod.snd
  have word := keyword_reader (bound + 1) (show (Token.keyword .guard).kind ≠ .classed from nofun)
  exact (word.both_of_follows guarded (token_follows nofun (by decide))).map Prod.snd

theorem menu_phrase_iff {word : List Token} {draft : Draft} : MenuPhrase word draft ↔
    ∃ title depends symbols condition children, Maybe Phrase.Dependency depends condition ∧
      Phrase.Source symbols children ∧ draft = .menu ⟨title, condition⟩ children ∧
      word = .keyword .menu :: .text title :: .mark .openBrace :: depends ++ symbols ++
        [.mark .closeBrace] := by
  constructor
  · rintro ⟨⟨title, condition, children⟩, ⟨front, back, rfl, header, body⟩, rfl⟩
    obtain ⟨rest, rfl, rfl⟩ := before_token_iff.1 header
    obtain ⟨inner, rfl, depends, symbols, rfl, holds, holds'⟩ := enclosed_iff.1 body
    exact ⟨title, depends, symbols, condition, children, holds, holds', rfl, by simp⟩
  · rintro ⟨title, depends, symbols, condition, children, holds, holds', rfl, rfl⟩
    refine ⟨(title, condition, children), ⟨[_, _], _, ?_, before_token_iff.2 ⟨_, rfl, rfl⟩,
      enclosed_iff.2 ⟨_, rfl, depends, symbols, rfl, holds, holds'⟩⟩, rfl⟩
    simp

theorem choice_phrase_iff {word : List Token} {draft : Draft} : ChoicePhrase word draft ↔
    ∃ type isOptional clauses entries properties options,
      Star Phrase.ChoiceClause clauses properties ∧ Star Phrase.Config entries options ∧
      draft = .choice ⟨type, isOptional, properties⟩ options ∧
      word = .keyword .choice :: .keyword type.keyword ::
        (if isOptional then [.keyword .optional] else []) ++
        .mark .openBrace :: clauses ++ entries ++ [.mark .closeBrace] := by
  constructor
  · rintro ⟨⟨⟨type, isOptional⟩, properties, options⟩, ⟨front, back, rfl, header, body⟩, rfl⟩
    obtain ⟨start, last, rfl, typed, found, mark, rfl⟩ := header
    obtain ⟨rest, rfl, rfl⟩ := before_token_iff.1 typed
    obtain ⟨inner, rfl, clauses, entries, rfl, holds, holds'⟩ := enclosed_iff.1 body
    refine ⟨type, found.isSome, clauses, entries, properties, options, holds, holds', rfl, ?_⟩
    cases mark with
    | none => simp
    | some mark =>
        obtain ⟨rfl, -⟩ := token_iff.1 mark
        simp
  · rintro ⟨type, isOptional, clauses, entries, properties, options, holds, holds', rfl, rfl⟩
    refine ⟨((type, isOptional), properties, options), ⟨.keyword .choice :: .keyword type.keyword ::
      (if isOptional then [.keyword .optional] else []), _, ?_, ⟨[_, _], _, rfl,
        before_token_iff.2 ⟨_, rfl, rfl⟩, ?_⟩,
      enclosed_iff.2 ⟨_, rfl, clauses, entries, rfl, holds, holds'⟩⟩, rfl⟩
    · simp
    · cases isOptional with
      | false => exact ⟨none, .none, rfl⟩
      | true => exact ⟨some _, .some (token_iff.2 ⟨rfl, rfl⟩), rfl⟩

theorem block_phrase_iff {word : List Token} {drafts : List Draft} : BlockPhrase word drafts ↔
    ∃ guard symbols condition, Phrase.Guard guard condition ∧ Phrase.Source symbols drafts ∧
      word = guard ++ .mark .openBrace :: symbols ++ [.mark .closeBrace] := by
  rw [BlockPhrase, before_token_iff]
  constructor
  · rintro ⟨rest, rfl, ⟨condition, drafts⟩, ⟨tail, block, rfl, bracketed, braces⟩, rfl⟩
    obtain ⟨symbols, rfl, holds⟩ := enclosed_iff.1 braces
    exact ⟨_, symbols, condition, .intro bracketed, holds, by simp⟩
  · rintro ⟨guard, symbols, condition, holds, holds', rfl⟩
    obtain ⟨tail, rfl, bracketed⟩ := Phrase.guard_cons holds
    refine ⟨tail ++ .mark .openBrace :: symbols ++ [.mark .closeBrace], rfl, (condition, drafts),
      ⟨tail, _, ?_, bracketed, enclosed_iff.2 ⟨symbols, rfl, holds'⟩⟩, rfl⟩
    simp

theorem Phrase.symbol_iff {word : List Token} {drafts : List Draft} : Symbol word drafts ↔
    (((MenuPhrase.either ((Config.map fun (head, children) => .entry head children).either
      ChoicePhrase)).map fun node => [node]).either BlockPhrase) word drafts := by
  constructor
  · intro holds
    cases holds with
    | menu title depends symbols =>
        exact .inl ⟨_, .inl (menu_phrase_iff.2
          ⟨title, _, _, _, _, depends, .intro symbols, rfl, rfl⟩), rfl⟩
    | config holds => exact .inl ⟨_, .inr (.inl ⟨_, holds, rfl⟩), rfl⟩
    | choice type isOptional clauses entries =>
        exact .inl ⟨_, .inr (.inr (choice_phrase_iff.2
          ⟨type, isOptional, _, _, _, _, clauses, entries, rfl, rfl⟩)), rfl⟩
    | block guard symbols =>
        exact .inr (block_phrase_iff.2 ⟨_, _, _, guard, .intro symbols, rfl⟩)
  · rintro (⟨draft, holds | ⟨entry, holds, rfl⟩ | holds, rfl⟩ | holds)
    · obtain ⟨title, depends, symbols, condition, children, dependency, inside, rfl, rfl⟩ :=
        menu_phrase_iff.1 holds
      obtain ⟨parts, inSymbols, rfl⟩ := source_iff.1 inside
      exact .menu title dependency inSymbols
    · exact .config holds
    · obtain ⟨type, isOptional, clauses, entries, properties, options, inClauses, inEntries, rfl,
        rfl⟩ := choice_phrase_iff.1 holds
      exact .choice type isOptional inClauses inEntries
    · obtain ⟨guard, symbols, condition, inGuard, inside, rfl⟩ := block_phrase_iff.1 holds
      obtain ⟨parts, inSymbols, rfl⟩ := source_iff.1 inside
      exact .block inGuard inSymbols

def symbolShape : Shape :=
  ⟨[.keyword .menu, .keyword .config, .keyword .menuconfig, .keyword .choice, .keyword .guard],
    [.mark .openBrace], false, true⟩

theorem item_reader (reader : Reader bound symbols Phrase.Source symbolsShape) :
    Reader (bound + 1) (sequenceItem symbols) Phrase.Symbol symbolShape := by
  have choice : Reader (bound + 1) (.firstOf (choiceNode symbols) []) _ _ := choice_reader reader
  have entries : Reader (bound + 1) (entryNode symbols) _ _ := (entry_reader reader).map _
  have fromEntry := entries.firstOf choice (by decide) rfl rfl
  have nodes := ((menu_reader reader).firstOf fromEntry (by decide) rfl rfl).map fun node => [node]
  exact (nodes.orElse (conditional_reader reader) (by decide) rfl rfl).congr
    fun _ _ => Phrase.symbol_iff

theorem symbol_follows (shaped : Shaped Phrase.Symbol symbolShape) :
    Follows Phrase.Symbol (Star Phrase.Symbol) := by
  refine shaped.follows_of_plain (fun _ => shaped.star_first rfl) (by decide) (by decide) ?_ ?_
  · exact fun _ word drafts => Phrase.symbol_not_behind_payload
  · exact fun member => absurd member (by decide)

theorem sequence_reads (reader : Reader bound symbols Phrase.Source symbolsShape) :
    ReadsBelow (bound + 1) (sequence symbols) Phrase.Source := by
  have item := item_reader reader
  have whole := (item.many_of_follows rfl (symbol_follows item.shaped)).map List.flatten
  exact (whole.congr fun _ _ => Phrase.source_iff).reads

end Recursion

theorem symbols_reader (bound : Nat) : Reader bound symbols Phrase.Source symbolsShape where
  reads := by
    refine ReadsBelow.recursive (fun bound rule reads => ?_) bound
    exact sequence_reads ⟨reads, source_shaped⟩
  shaped := source_shaped

end KernelMenu.Grammar

import KernelMenu.Proofs.Acceptance

/-!
Places of a source where symbols stand in a row: the source itself, the body of a menu or a
conditional block, and the end of the body of an entry, be it a symbol or an option of a choice.
What a source stands for depends only on what the symbols in such a place stand for.
-/

namespace KernelMenu.Grammar.Phrase

/-- What stands in a row: symbols, or the options of a choice. -/
inductive Row where
  | symbols | options

def Row.Holds : Row → List Token → Prop
  | .symbols, word => ∃ drafts, Source word drafts
  | .options, word => ∃ options, Star Config word options

/-- A row may stand between the tokens in front and the tokens behind. Each case but the first goes
one step further into a source that can be derived. -/
inductive Place : Row → List Token → List Token → Prop
  | source : Place .symbols [] []
  | beside {row : Row} {front back before after : List Token} :
      Place row front back → row.Holds before → row.Holds after →
      Place row (front ++ before) (after ++ back)
  | menu {front back depends : List Token} {condition : Option Expr} (title : String) :
      Place .symbols front back → Maybe Dependency depends condition →
      Place .symbols (front ++ .keyword .menu :: .text title :: .mark .openBrace :: depends)
        (.mark .closeBrace :: back)
  | block {front back guard : List Token} {condition : Expr} :
      Place .symbols front back → Guard guard condition →
      Place .symbols (front ++ guard ++ [.mark .openBrace]) (.mark .closeBrace :: back)
  | choice {front back clauses : List Token} {properties : List Property} (type : ValueType)
      (isOptional : Bool) :
      Place .symbols front back → Star ChoiceClause clauses properties →
      Place .options (front ++ .keyword .choice :: .keyword type.keyword ::
          (if isOptional then [.keyword .optional] else []) ++ .mark .openBrace :: clauses)
        (.mark .closeBrace :: back)
  | entry {row : Row} {front back header clauses last : List Token} {isMenu : Bool} {name : String}
      {type : ValueType} {properties : List Property} {inherited : Option Expr} :
      Place row front back → Header header isMenu name type →
      Star PropertyClause clauses properties → Maybe Inherited last inherited →
      Place .symbols (front ++ header ++ .mark .openBrace :: clauses ++ last)
        (.mark .closeBrace :: back)

def Row.Same : Row → List Token → List Token → Prop
  | .symbols, word, word' => ∃ drafts, Source word drafts ∧ Source word' drafts
  | .options, word, word' => ∃ options, Star Config word options ∧ Star Config word' options

theorem source_append {front back : List Token} {drafts drafts' : List Draft}
    (first : Source front drafts) (second : Source back drafts') :
    Source (front ++ back) (drafts ++ drafts') := by
  obtain ⟨parts, holds, rfl⟩ := source_iff.1 first
  obtain ⟨parts', holds', rfl⟩ := source_iff.1 second
  exact source_iff.2 ⟨parts ++ parts', Language.star_append holds holds', List.flatten_append⟩

theorem source_of_symbol {word : List Token} {drafts : List Draft} (holds : Symbol word drafts) :
    Source word drafts :=
  source_iff.2 ⟨[drafts], Language.star_one holds, by simp⟩

/-- Relations of drafts and of options that go over from two rows to whatever the rows stand in. -/
structure Congruent (alike : List Draft → List Draft → Prop)
    (alike' : List (ConfigClauses × List Draft) → List (ConfigClauses × List Draft) → Prop) :
    Prop where
  refl (drafts : List Draft) : alike drafts drafts
  refl' (options : List (ConfigClauses × List Draft)) : alike' options options
  append {front front' back back' : List Draft} :
    alike front front' → alike back back' → alike (front ++ back) (front' ++ back')
  append' {front front' back back' : List (ConfigClauses × List Draft)} :
    alike' front front' → alike' back back' → alike' (front ++ back) (front' ++ back')
  menu {drafts drafts' : List Draft} (head : MenuClauses) :
    alike drafts drafts' → alike [.menu head drafts] [.menu head drafts']
  entry {drafts drafts' : List Draft} (head : ConfigClauses) :
    alike drafts drafts' → alike [.entry head drafts] [.entry head drafts']
  option {drafts drafts' : List Draft} (head : ConfigClauses) :
    alike drafts drafts' → alike' [(head, drafts)] [(head, drafts')]
  choice {options options' : List (ConfigClauses × List Draft)} (head : ChoiceClauses) :
    alike' options options' → alike [.choice head options] [.choice head options']

theorem congruent_eq : Congruent Eq Eq where
  refl _ := rfl
  refl' _ := rfl
  append same same' := by rw [same, same']
  append' same same' := by rw [same, same']
  menu _ same := by rw [same]
  entry _ same := by rw [same]
  option _ same := by rw [same]
  choice _ same := by rw [same]

section Related

variable {alike : List Draft → List Draft → Prop}
  {alike' : List (ConfigClauses × List Draft) → List (ConfigClauses × List Draft) → Prop}

def Row.Related (alike : List Draft → List Draft → Prop)
    (alike' : List (ConfigClauses × List Draft) → List (ConfigClauses × List Draft) → Prop) :
    Row → List Token → List Token → Prop
  | .symbols, word, word' =>
      ∃ drafts drafts', Source word drafts ∧ Source word' drafts' ∧ alike drafts drafts'
  | .options, word, word' =>
      ∃ options options', Star Config word options ∧ Star Config word' options' ∧
        alike' options options'

theorem Row.Holds.related (congruent : Congruent alike alike') {row : Row} {word : List Token}
    (holds : row.Holds word) : row.Related alike alike' word word := by
  cases row with
  | symbols =>
      obtain ⟨drafts, holds⟩ := holds
      exact ⟨drafts, drafts, holds, holds, congruent.refl drafts⟩
  | options =>
      obtain ⟨options, holds⟩ := holds
      exact ⟨options, options, holds, holds, congruent.refl' options⟩

theorem Row.Related.append (congruent : Congruent alike alike') {row : Row}
    {front front' back back' : List Token} (first : row.Related alike alike' front front')
    (second : row.Related alike alike' back back') :
    row.Related alike alike' (front ++ back) (front' ++ back') := by
  cases row with
  | symbols =>
      obtain ⟨drafts, drafts', holds, holds', same⟩ := first
      obtain ⟨others, others', also, also', same'⟩ := second
      exact ⟨_, _, source_append holds also, source_append holds' also',
        congruent.append same same'⟩
  | options =>
      obtain ⟨options, options', holds, holds', same⟩ := first
      obtain ⟨others, others', also, also', same'⟩ := second
      exact ⟨_, _, Language.star_append holds also, Language.star_append holds' also',
        congruent.append' same same'⟩

theorem Row.related_of_config {word word' : List Token} {head head' : ConfigClauses}
    {drafts drafts' : List Draft} (row : Row) (holds : Config word (head, drafts))
    (holds' : Config word' (head', drafts'))
    (same : alike [.entry head drafts] [.entry head' drafts'])
    (same' : alike' [(head, drafts)] [(head', drafts')]) :
    row.Related alike alike' word word' := by
  cases row with
  | symbols =>
      exact ⟨_, _, source_of_symbol (.config holds), source_of_symbol (.config holds'), same⟩
  | options => exact ⟨_, _, Language.star_one holds, Language.star_one holds', same'⟩

end Related

theorem source_of_menu (title : String) {depends word : List Token} {condition : Option Expr}
    {drafts : List Draft} (dependency : Maybe Dependency depends condition)
    (holds : Source word drafts) :
    Source (.keyword .menu :: .text title :: .mark .openBrace :: depends ++ word ++
      [.mark .closeBrace]) [.menu ⟨title, condition⟩ drafts] := by
  obtain ⟨parts, symbols, rfl⟩ := source_iff.1 holds
  exact source_of_symbol (.menu title dependency symbols)

/-- A conditional block stands for what is in it. -/
theorem source_of_block {guard word : List Token} {condition : Expr} {drafts : List Draft}
    (guarded : Guard guard condition) (holds : Source word drafts) :
    Source (guard ++ .mark .openBrace :: word ++ [.mark .closeBrace]) drafts := by
  obtain ⟨parts, symbols, rfl⟩ := source_iff.1 holds
  exact source_of_symbol (.block guarded symbols)

theorem config_of_source {header clauses last word : List Token} {isMenu : Bool} {name : String}
    {type : ValueType} {properties : List Property} {inherited : Option Expr} {drafts : List Draft}
    (head : Header header isMenu name type) (holds : Star PropertyClause clauses properties)
    (holds' : Maybe Inherited last inherited) (inside : Source word drafts) :
    Config (header ++ .mark .openBrace :: clauses ++ last ++ word ++ [.mark .closeBrace])
      (⟨name, isMenu, type, properties, inherited⟩, drafts) := by
  obtain ⟨parts, symbols, rfl⟩ := source_iff.1 inside
  exact .body head holds holds' symbols

theorem Place.related {alike : List Draft → List Draft → Prop}
    {alike' : List (ConfigClauses × List Draft) → List (ConfigClauses × List Draft) → Prop}
    (congruent : Congruent alike alike') {row : Row} {front back word word' : List Token}
    (place : Place row front back) (related : row.Related alike alike' word word') :
    Row.symbols.Related alike alike' (front ++ word ++ back) (front ++ word' ++ back) := by
  -- From the inside outwards: both rows get the last shell of the place, and what they become
  -- stands in the place without it.
  induction place generalizing word word' with
  | source => simpa using related
  | beside _ before after induction =>
      have whole := induction
        (((before.related congruent).append congruent related).append congruent
          (after.related congruent))
      simpa only [List.append_assoc] using whole
  | menu title _ dependency induction =>
      obtain ⟨drafts, drafts', holds, holds', same⟩ := related
      have whole := induction ⟨_, _, source_of_menu title dependency holds,
        source_of_menu title dependency holds', congruent.menu _ same⟩
      simpa only [List.append_assoc, List.cons_append, List.nil_append] using whole
  | block _ guarded induction =>
      obtain ⟨drafts, drafts', holds, holds', same⟩ := related
      have whole := induction ⟨_, _, source_of_block guarded holds, source_of_block guarded holds',
        same⟩
      simpa only [List.append_assoc, List.cons_append, List.nil_append] using whole
  | choice type isOptional _ clauses induction =>
      obtain ⟨options, options', holds, holds', same⟩ := related
      have whole := induction ⟨_, _, source_of_symbol (.choice type isOptional clauses holds),
        source_of_symbol (.choice type isOptional clauses holds'), congruent.choice _ same⟩
      simpa only [List.append_assoc, List.cons_append, List.nil_append] using whole
  | @entry row _ _ _ _ _ _ _ _ _ _ _ header clauses last induction =>
      obtain ⟨drafts, drafts', holds, holds', same⟩ := related
      have whole := induction (row.related_of_config (config_of_source header clauses last holds)
        (config_of_source header clauses last holds') (congruent.entry _ same)
        (congruent.option _ same))
      simpa only [List.append_assoc, List.cons_append, List.nil_append] using whole

theorem Place.same {row : Row} {front back word word' : List Token} (place : Place row front back)
    (same : row.Same word word') :
    Row.symbols.Same (front ++ word ++ back) (front ++ word' ++ back) := by
  have related : row.Related Eq Eq word word' := by
    cases row with
    | symbols | options =>
        obtain ⟨value, holds, holds'⟩ := same
        exact ⟨value, value, holds, holds', rfl⟩
  obtain ⟨drafts, _, holds, holds', rfl⟩ := place.related congruent_eq related
  exact ⟨drafts, holds, holds'⟩

end KernelMenu.Grammar.Phrase

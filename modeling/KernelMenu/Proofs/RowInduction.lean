import KernelMenu.Proofs.SymbolPlace

/-!
What stands in a row, with the drafts that it stands for. What holds of nothing, of two rows in one
if it holds of both, and of a symbol if it holds of the row in its body, holds of all rows.
-/

namespace KernelMenu.Grammar.Phrase

/-- The drafts that a row stands for; an option is an entry. -/
def Row.Stands : Row → List Token → List Draft → Prop
  | .symbols, word, drafts => Source word drafts
  | .options, word, drafts => ∃ options, Star Config word options ∧
      drafts = options.map fun option => .entry option.1 option.2

theorem Source.stands {word : List Token} {drafts : List Draft} (holds : Source word drafts) :
    Row.symbols.Stands word drafts := holds

theorem source_of_options {word : List Token} {options : List (ConfigClauses × List Draft)}
    (holds : Star Config word options) :
    Source word (options.map fun option => .entry option.1 option.2) := by
  induction holds with
  | nil => exact source_nil
  | cons first _ induction => exact source_append (source_of_symbol (.config first)) induction

theorem Row.stands_of_config (row : Row) {word : List Token} {head : ConfigClauses}
    {children : List Draft} (holds : Config word (head, children)) :
    row.Stands word [.entry head children] := by
  cases row with
  | symbols => exact source_of_symbol (.config holds)
  | options => exact ⟨_, Language.star_one holds, rfl⟩

theorem Row.Holds.stands {row : Row} {word : List Token} (holds : row.Holds word) :
    ∃ drafts, row.Stands word drafts := by
  cases row with
  | symbols => exact holds
  | options =>
      obtain ⟨options, holds⟩ := holds
      exact ⟨_, options, holds, rfl⟩

namespace Row.Stands

variable {row : Row} {word : List Token} {drafts : List Draft}

theorem source (stands : row.Stands word drafts) : Source word drafts := by
  cases row with
  | symbols => exact stands
  | options =>
      obtain ⟨options, holds, rfl⟩ := stands
      exact source_of_options holds

theorem holds (stands : row.Stands word drafts) : row.Holds word := by
  cases row with
  | symbols => exact ⟨drafts, stands⟩
  | options =>
      obtain ⟨options, holds, -⟩ := stands
      exact ⟨options, holds⟩

theorem append {word' : List Token} {drafts' : List Draft} (first : row.Stands word drafts)
    (second : row.Stands word' drafts') : row.Stands (word ++ word') (drafts ++ drafts') := by
  cases row with
  | symbols => exact source_append first second
  | options =>
      obtain ⟨options, holds, rfl⟩ := first
      obtain ⟨options', holds', rfl⟩ := second
      exact ⟨options ++ options', Language.star_append holds holds', List.map_append.symm⟩

theorem nil (row : Row) : row.Stands [] [] := by
  cases row with
  | symbols => exact source_nil
  | options => exact ⟨[], .nil, rfl⟩

section Induction

variable
  {motive : (row : Row) → (word : List Token) → (drafts : List Draft) →
    row.Stands word drafts → Prop}
  (nil : ∀ row, motive row [] [] (.nil row))
  (append : ∀ {row : Row} {word word' drafts drafts'} (first : row.Stands word drafts)
    (second : row.Stands word' drafts'), motive _ _ _ first → motive _ _ _ second →
    motive _ _ _ (first.append second))
  (bare : ∀ (row : Row) {header isMenu name type} (head : Header header isMenu name type),
    motive _ _ _ (row.stands_of_config (.bare head)))
  (body : ∀ (row : Row)
    {header clauses last word isMenu name type properties inherited children}
    (head : Header header isMenu name type) (holds : Star PropertyClause clauses properties)
    (holds' : Maybe Inherited last inherited) (inside : Row.symbols.Stands word children),
    motive _ _ _ inside →
    motive _ _ _ (row.stands_of_config (config_of_source head holds holds' inside)))
  (menu : ∀ title {depends word condition children}
    (dependency : Maybe Dependency depends condition)
    (inside : Row.symbols.Stands word children), motive _ _ _ inside →
    motive .symbols _ _ (source_of_menu title dependency inside))
  (choice : ∀ type isOptional {clauses word properties options}
    (holds : Star ChoiceClause clauses properties) (entries : Star Config word options),
    motive .options _ _ ⟨options, entries, rfl⟩ →
    motive .symbols _ _ (source_of_symbol (.choice type isOptional holds entries)))
  (block : ∀ {guard word condition children} (guarded : Guard guard condition)
    (inside : Row.symbols.Stands word children), motive _ _ _ inside →
    motive .symbols _ _ (source_of_block guarded inside))

include append in
private theorem induct_cons {word words : List Token} {drafts : List Draft}
    {parts : List (List Draft)} (first : Symbol word drafts) (others : Star Symbol words parts)
    (atFirst : motive .symbols _ _ (source_of_symbol first))
    (atOthers : motive .symbols _ _ (.intro others)) :
    motive .symbols _ _ (.intro (.cons first others)) :=
  @append .symbols _ _ _ _ (source_of_symbol first) (.intro others) atFirst atOthers

include append in
private theorem induct_cons_option {word words : List Token} {entry : ConfigClauses × List Draft}
    {options : List (ConfigClauses × List Draft)} (first : Config word entry)
    (others : Star Config words options)
    (atFirst : motive .options _ _ (Row.options.stands_of_config first))
    (atOthers : motive .options _ _ ⟨options, others, rfl⟩) :
    motive .options _ _ ⟨entry :: options, .cons first others, rfl⟩ :=
  append (Row.options.stands_of_config first) ⟨_, others, rfl⟩ atFirst atOthers

include nil append bare body menu choice block

private theorem induct_symbol {word : List Token} {drafts : List Draft}
    (holds : Symbol word drafts) : motive .symbols _ _ (source_of_symbol holds) :=
  @Symbol.rec (fun _ _ holds => ∀ row : Row, motive row _ _ (row.stands_of_config holds))
    (fun _ _ holds => motive .symbols _ _ (source_of_symbol holds))
    (fun _ _ holds => motive .symbols _ _ (.intro holds))
    (fun _ options holds => motive .options _ _ ⟨options, holds, rfl⟩)
    (fun head row => bare row head)
    (fun head clauses last symbols inner row => body row head clauses last (.intro symbols) inner)
    (fun title _ _ _ _ dependency symbols inner => menu title dependency (.intro symbols) inner)
    (fun _ inner => inner .symbols)
    (fun type isOptional _ _ _ _ clauses entries inner =>
      choice type isOptional clauses entries inner)
    (fun guarded symbols inner => block guarded (.intro symbols) inner)
    (nil _) (induct_cons append)
    (nil _) (fun first others inner => induct_cons_option append first others (inner .options))
    word drafts holds

private theorem induct_symbols {word : List Token} {parts : List (List Draft)}
    (holds : Star Symbol word parts) : motive .symbols _ _ (.intro holds) := by
  induction holds with
  | nil => exact nil _
  | cons first others induction =>
      exact induct_cons append first others
        (induct_symbol nil append bare body menu choice block first) induction

private theorem induct_config (row : Row) {word : List Token}
    {entry : ConfigClauses × List Draft} (holds : Config word entry) :
    motive row _ _ (row.stands_of_config holds) := by
  cases holds with
  | bare head => exact bare _ head
  | body head clauses last inner =>
      exact body _ head clauses last _
        (induct_symbols nil append bare body menu choice block inner)

/-- Induction on rows. An entry may stand in each kind of row. What is in its body, in that of a
menu or in a conditional block is a row of symbols, and what is in a choice is a row of options. -/
theorem induct (stands : row.Stands word drafts) : motive row word drafts stands := by
  cases row with
  | symbols =>
      obtain ⟨parts, holds, rfl⟩ := source_iff.1 stands
      exact induct_symbols nil append bare body menu choice block holds
  | options =>
      obtain ⟨options, holds, rfl⟩ := stands
      induction holds with
      | nil => exact nil _
      | cons first others induction =>
          exact induct_cons_option append first others
            (induct_config nil append bare body menu choice block _ first) induction

end Induction

end Row.Stands

end KernelMenu.Grammar.Phrase

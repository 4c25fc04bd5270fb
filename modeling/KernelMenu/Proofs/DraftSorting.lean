import KernelMenu.Parse
import Mathlib.Data.List.Basic

/-!
The draft of a tree: all clauses in the order in which they are printed. Sorting them by kind gives
the tree again, and a choice always has its prompt.
-/

namespace KernelMenu

def Expr.unlessYes (expr : Expr) : Option Expr := if expr.isYes then none else some expr

theorem Expr.eq_yes_of_is_yes {expr : Expr} (isYes : expr.isYes = true) : expr = .yes := by
  cases expr with
  | yes => rfl
  | _ => exact nomatch isYes

theorem Expr.unless_yes_get (expr : Expr) : expr.unlessYes.getD .yes = expr := by
  rw [unlessYes]
  split
  case isTrue isYes => exact (eq_yes_of_is_yes isYes).symm
  case isFalse => rfl

def Config.clauses (config : Config) : ConfigClauses where
  name := config.name
  isMenu := config.isMenu
  type := config.type
  properties := config.prompt.toList.map .prompt ++ config.dependsOn.map .dependsOn ++
    config.defaults.map .default ++ config.ranges.map .range ++ config.selects.map .select ++
    config.env.map .env
  inherited := config.inherited.unlessYes

def Choice.clauses (choice : Choice) : ChoiceClauses where
  type := choice.type
  isOptional := !choice.isMandatory
  properties := .prompt choice.prompt :: choice.defaults.map .default ++
    choice.dependsOn.map .dependsOn

def menuClauses (title : Guarded String) : MenuClauses := ⟨title.payload, title.condition.unlessYes⟩

theorem Config.sorted_clauses (config : Config) : config.clauses.sorted = config := by
  have prompt : config.clauses.properties.findSome? Property.prompt? = config.prompt := by
    rw [← List.head?_filterMap]
    simp only [Config.clauses, List.filterMap_append, List.filterMap_map, Function.comp_def,
      Property.prompt?, List.filterMap_some, List.filterMap_none, List.append_nil]
    exact Option.head?_toList
  have defaults : config.clauses.properties.filterMap Property.default? = config.defaults := by
    simp [Config.clauses, Function.comp_def, Property.default?, List.filterMap_none]
  have selects : config.clauses.properties.filterMap Property.select? = config.selects := by
    simp [Config.clauses, Function.comp_def, Property.select?, List.filterMap_none]
  have ranges : config.clauses.properties.filterMap Property.range? = config.ranges := by
    simp [Config.clauses, Function.comp_def, Property.range?, List.filterMap_none]
  have dependsOn : config.clauses.properties.filterMap Property.dependsOn? = config.dependsOn := by
    simp [Config.clauses, Function.comp_def, Property.dependsOn?, List.filterMap_none]
  have env : config.clauses.properties.filterMap Property.env? = config.env := by
    simp [Config.clauses, Function.comp_def, Property.env?, List.filterMap_none]
  have inherited : config.clauses.inherited.getD .yes = config.inherited :=
    config.inherited.unless_yes_get
  rw [ConfigClauses.sorted, prompt, defaults, selects, ranges, dependsOn, env, inherited]
  rfl

theorem Choice.sorted_clauses (choice : Choice) : choice.clauses.sorted? = some choice := by
  have prompt : choice.clauses.prompt? = some choice.prompt := rfl
  have defaults : choice.clauses.properties.filterMap Property.default? = choice.defaults := by
    simp [Choice.clauses, List.filterMap_cons, Function.comp_def, Property.default?,
      List.filterMap_none]
  have dependsOn : choice.clauses.properties.filterMap Property.dependsOn? = choice.dependsOn := by
    simp [Choice.clauses, List.filterMap_cons, Function.comp_def, Property.dependsOn?,
      List.filterMap_none]
  have isBoolean : decide (choice.clauses.type = .boolean) = choice.isBoolean := by
    rw [Choice.clauses, Choice.type]
    cases choice.isBoolean <;> rfl
  have isMandatory : (!choice.clauses.isOptional) = choice.isMandatory := Bool.not_not _
  rw [ChoiceClauses.sorted?, prompt, defaults, dependsOn, isBoolean, isMandatory]
  rfl

theorem menu_clauses_heading (title : Guarded String) : (menuClauses title).heading = title := by
  rw [menuClauses, MenuClauses.heading]
  dsimp only
  rw [Expr.unless_yes_get]

def Symbol.draft : Symbol → Draft := Outline.fold {
  entry config children := .entry config.clauses children
  menu title children := .menu (menuClauses title) children
  choice choice options :=
    .choice choice.clauses (options.map fun option => (option.1.clauses, option.2)) }

theorem Symbol.draft_entry (config : Config) (children : List Symbol) :
    draft (.entry config children) = .entry config.clauses (children.map draft) :=
  Outline.fold_entry _ config children

theorem Symbol.draft_menu (title : Guarded String) (children : List Symbol) :
    draft (.menu title children) = .menu (menuClauses title) (children.map draft) :=
  Outline.fold_menu _ title children

theorem Symbol.draft_choice (choice : Choice) (options : List (Config × List Symbol)) :
    draft (.choice choice options) = .choice choice.clauses
      (options.map fun option => (option.1.clauses, option.2.map draft)) := by
  rw [draft, Outline.fold_choice]
  dsimp only
  rw [List.map_map]
  rfl

/-- The symbols of drafts that stand in a row below a node. -/
def Draft.below (drafts : List Draft) : Option (List Symbol) :=
  (drafts.map symbol?).mapM fun child => child

theorem Draft.symbol_entry (head : ConfigClauses) (children : List Draft) :
    symbol? (.entry head children) = (below children).map (.entry head.sorted) := by
  have unfolded : symbol? (.entry head children) =
      (below children).bind fun symbols => some (.entry head.sorted symbols) :=
    Outline.fold_entry _ head children
  rw [unfolded]
  cases below children <;> rfl

theorem Draft.symbol_menu (head : MenuClauses) (children : List Draft) :
    symbol? (.menu head children) = (below children).map (.menu head.heading) := by
  have unfolded : symbol? (.menu head children) =
      (below children).bind fun symbols => some (.menu head.heading symbols) :=
    Outline.fold_menu _ head children
  rw [unfolded]
  cases below children <;> rfl

theorem Draft.symbol_choice (head : ChoiceClauses) (options : List (ConfigClauses × List Draft)) :
    symbol? (.choice head options) = head.sorted?.bind fun choice =>
      (options.mapM fun option => (below option.2).map fun children =>
        (option.1.sorted, children)).map (.choice choice) := by
  have unfolded : symbol? (.choice head options) = head.sorted?.bind fun choice =>
      ((options.map fun option => (option.1, option.2.map symbol?)).mapM
        fun option : ConfigClauses × List (Option Symbol) =>
          (option.2.mapM fun child => child).bind fun children =>
            some (option.1.sorted, children)).bind fun options => some (.choice choice options) :=
    Outline.fold_choice _ head options
  rw [unfolded, List.mapM_map]
  simp only [Option.map_eq_bind]
  rfl

theorem map_m_map {Source Target : Type} {change : Source → Option Target}
    {back : Target → Source} {values : List Target}
    (undone : ∀ value ∈ values, change (back value) = some value) :
    (values.map back).mapM change = some values := by
  induction values with
  | nil => rfl
  | cons value values induction =>
      have rest := induction fun other member => undone other (List.mem_cons_of_mem _ member)
      rw [List.map_cons, List.mapM_cons, undone value List.mem_cons_self, rest]
      rfl

theorem Draft.below_of_drafts {symbols : List Symbol}
    (undone : ∀ child ∈ symbols, symbol? child.draft = some child) :
    below (symbols.map Symbol.draft) = some symbols := by
  rw [below, List.map_map]
  exact map_m_map undone

theorem Symbol.of_draft (symbol : Symbol) : Draft.symbol? symbol.draft = some symbol := by
  induction symbol using Outline.induct with
  | atEntry config children induction =>
      rw [draft_entry, Draft.symbol_entry, Draft.below_of_drafts induction, Config.sorted_clauses]
      rfl
  | atMenu title children induction =>
      rw [draft_menu, Draft.symbol_menu, Draft.below_of_drafts induction, menu_clauses_heading]
      rfl
  | atChoice choice options induction =>
      rw [draft_choice, Draft.symbol_choice, Choice.sorted_clauses, Option.bind_some, map_m_map]
      · rfl
      · intro option member
        rw [Draft.below_of_drafts (induction option member), Config.sorted_clauses]
        rfl

theorem Draft.symbols_eq_ok_iff {drafts : List Draft} {symbols : List Symbol} :
    Draft.symbols drafts = .ok symbols ↔ drafts.mapM symbol? = some symbols := by
  unfold Draft.symbols
  cases drafts.mapM symbol? <;> simp

theorem symbols_of_drafts (symbols : List Symbol) :
    Draft.symbols (symbols.map Symbol.draft) = .ok symbols := by
  rw [Draft.symbols, map_m_map fun symbol _ => symbol.of_draft]

end KernelMenu

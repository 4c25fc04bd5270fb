import KernelMenu.Proofs.StatementOrder
import KernelMenu.Proofs.StatementReading

/-!
A tree holds what its source says, and nothing else. Each statement of the source is about the node
whose header came last, and stands in that node among the properties of its kind, in the order of
the source; only guards of blocks and prompts after the first one of a node leave no trace.
-/

namespace KernelMenu

open Grammar Phrase Outline

def Property.isOfChoice : Property → Bool
  | prompt _ | dependsOn _ | default _ => true
  | range _ | select _ | env _ => false

namespace Node

/-- What a node was made of: its header, its clauses, and the condition that an entry inherits.
Every clause has its place in the node, but of the prompts only the first one. -/
inductive MadeOf : Node → List Statement → Prop
  | entry (name : String) (isMenu : Bool) (type : ValueType) (properties : List Property)
      (inherited : Option Expr) :
      MadeOf
        (.entry {
          name, isMenu, type
          inherited := inherited.getD .yes
          prompt := properties.findSome? Property.prompt?
          defaults := properties.filterMap Property.default?
          selects := properties.filterMap Property.select?
          ranges := properties.filterMap Property.range?
          dependsOn := properties.filterMap Property.dependsOn?
          env := properties.filterMap Property.env? })
        (.header (.entry isMenu name type) ::
          (properties.map .clause ++ inherited.toList.map .inherited))
  | menu (title : String) (dependency : Option Expr) :
      MadeOf (.menu ⟨title, dependency.getD .yes⟩)
        (.header (.menu title) ::
          dependency.toList.map fun condition => .clause (.dependsOn condition))
  | choice {prompt : Guarded String} {properties : List Property} (isBoolean isOptional : Bool) :
      (∀ property ∈ properties, property.isOfChoice = true) →
      properties.findSome? Property.prompt? = some prompt →
      MadeOf
        (.choice {
          prompt, isBoolean
          isMandatory := !isOptional
          defaults := properties.filterMap Property.default?
          dependsOn := properties.filterMap Property.dependsOn? })
        (.header (.choice isBoolean isOptional) :: properties.map .clause)

def header : Node → NodeHeader
  | .entry config => .entry config.isMenu config.name config.type
  | .menu title => .menu title.payload
  | .choice head => .choice head.isBoolean (!head.isMandatory)

def defaults : Node → List (Guarded Expr)
  | .entry config => config.defaults
  | .menu _ => []
  | .choice head => head.defaults

namespace MadeOf

variable {nodes : List Node} {parts : List (List Statement)}

/-- What the nodes hold of some kind is what the statements say of that kind, in the same order. -/
theorem flat_map {Value : Type} {ofNode : Node → List Value} {value? : Statement → Option Value}
    (made : List.Forall₂ MadeOf nodes parts)
    (each : ∀ node part, MadeOf node part → ofNode node = part.filterMap value?) :
    nodes.flatMap ofNode = parts.flatten.filterMap value? := by
  induction made with
  | nil => rfl
  | cons first _ induction =>
      rw [List.flatMap_cons, List.flatten_cons, List.filterMap_append, each _ _ first, induction]

theorem headers (made : List.Forall₂ MadeOf nodes parts) :
    nodes.map header = parts.flatten.filterMap Statement.header? := by
  rw [List.map_eq_flatMap]
  apply flat_map made
  intro node part madeOf
  cases madeOf with
  | entry | menu | choice => simp [header, Statement.header?, Function.comp_def]

theorem clauses_filter {Value : Type} (value? : Property → Option Value)
    (properties : List Property) : ((properties.map Statement.clause).filterMap fun statement =>
      statement.property?.bind value?) = properties.filterMap value? := by
  rw [List.filterMap_map]
  rfl

theorem entry_filter {Value : Type} (value? : Property → Option Value)
    (head : NodeHeader) (properties : List Property) (inherited : Option Expr) :
    ((Statement.header head :: (properties.map Statement.clause ++
        inherited.toList.map Statement.inherited)).filterMap
      fun statement => statement.property?.bind value?) = properties.filterMap value? := by
  have none : (inherited.toList.map Statement.inherited).filterMap
      (fun statement => statement.property?.bind value?) = [] := by
    cases inherited <;> rfl
  rw [List.filterMap_cons_none rfl, List.filterMap_append, clauses_filter, none, List.append_nil]

theorem of_entries {Value : Type} {ofEntry : Config → List Value} {value? : Property → Option Value}
    (made : List.Forall₂ MadeOf nodes parts)
    (entry : ∀ clauses : ConfigClauses,
      ofEntry clauses.sorted = clauses.properties.filterMap value?)
    (other : ∀ property, property.isOfChoice = true → value? property = none) :
    (nodes.filterMap Head.entry?).flatMap ofEntry =
      parts.flatten.filterMap fun statement => statement.property?.bind value? := by
  rw [List.filterMap_eq_flatMap_toList, List.flatMap_assoc]
  apply flat_map made
  intro node part madeOf
  cases madeOf with
  | entry name isMenu type properties inherited =>
      have own := entry ⟨name, isMenu, type, properties, inherited⟩
      rw [entry_filter, ← own]
      exact List.flatMap_singleton ..
  | menu title dependency =>
      cases dependency with
      | none => rfl
      | some condition =>
          have skipped := other (.dependsOn condition) rfl
          exact (congrArg Option.toList skipped).symm
  | choice isBoolean isOptional keeps found =>
      rw [List.filterMap_cons_none rfl, clauses_filter]
      exact (List.filterMap_eq_nil_iff.2 fun property inside =>
        other property (keeps property inside)).symm

theorem selects (made : List.Forall₂ MadeOf nodes parts) :
    ((nodes.filterMap Head.entry?).flatMap fun config => config.selects.map Guarded.payload) =
      parts.flatten.filterMap fun statement =>
        statement.property?.bind fun property => property.select?.map Guarded.payload := by
  apply of_entries made
  · exact fun clauses => List.map_filterMap
  · intro property keeps
    cases property <;> first | rfl | exact nomatch keeps

theorem env_names (made : List.Forall₂ MadeOf nodes parts) :
    ((nodes.filterMap Head.entry?).flatMap fun config => config.env.map Guarded.payload) =
      parts.flatten.filterMap fun statement =>
        statement.property?.bind fun property => property.env?.map Guarded.payload := by
  apply of_entries made
  · exact fun clauses => List.map_filterMap
  · intro property keeps
    cases property <;> first | rfl | exact nomatch keeps

theorem ranges (made : List.Forall₂ MadeOf nodes parts) :
    (nodes.filterMap Head.entry?).flatMap Config.ranges =
      parts.flatten.filterMap fun statement => statement.property?.bind Property.range? := by
  apply of_entries made
  · exact fun clauses => rfl
  · intro property keeps
    cases property <;> first | rfl | exact nomatch keeps

theorem all_defaults (made : List.Forall₂ MadeOf nodes parts) :
    nodes.flatMap defaults =
      parts.flatten.filterMap fun statement => statement.property?.bind Property.default? := by
  apply flat_map made
  intro node part madeOf
  cases madeOf with
  | entry name isMenu type properties inherited =>
      rw [entry_filter]
      rfl
  | menu title dependency => cases dependency <;> rfl
  | choice isBoolean isOptional keeps found =>
      rw [List.filterMap_cons_none rfl, clauses_filter]
      rfl

end MadeOf

end Node

namespace Draft

/-- Each clause of a choice is of a kind that has a place in the tree. -/
def Keeps : Head ConfigClauses MenuClauses ChoiceClauses → Prop
  | .choice head => ∀ property ∈ head.properties, property.isOfChoice = true
  | _ => True

def AllKeep (drafts : List Draft) : Prop := ∀ node ∈ drafts.flatMap heads, Keeps node

theorem AllKeep.append {drafts drafts' : List Draft} (first : AllKeep drafts)
    (second : AllKeep drafts') : AllKeep (drafts ++ drafts') := by
  rw [AllKeep, List.flatMap_append]
  exact List.forall_mem_append.2 ⟨first, second⟩

theorem AllKeep.cons {draft : Draft} {node : Head ConfigClauses MenuClauses ChoiceClauses}
    {below : List Draft} (listed : draft.heads = node :: below.flatMap heads) (keeps : Keeps node)
    (inner : AllKeep below) : AllKeep [draft] := by
  rw [AllKeep, List.flatMap_singleton, listed]
  exact List.forall_mem_cons.2 ⟨keeps, inner⟩

end Draft

namespace Grammar.Phrase

theorem choice_star_properties {word : List Token} {properties : List Property}
    (holds : Star ChoiceClause word properties) :
    ∀ property ∈ properties, property.isOfChoice = true := by
  induction holds with
  | nil => exact nofun
  | cons first _ induction =>
      intro property member
      rcases List.mem_cons.1 member with rfl | member
      · cases first <;> rfl
      · exact induction property member

theorem all_keep {row : Row} {word : List Token} {drafts : List Draft}
    (stands : row.Stands word drafts) : Draft.AllKeep drafts := by
  induction stands using Row.Stands.induct with
  | nil row => exact nofun
  | append _ _ first second => exact first.append second
  | bare row head => exact .cons (heads_entry _ []) trivial nofun
  | body row head clauses last _ inner => exact .cons (heads_entry _ _) trivial inner
  | menu title dependency _ inner => exact .cons (heads_menu _ _) trivial inner
  | choice type isOptional clauses _ inner =>
      exact .cons (heads_choice _ _) (choice_star_properties clauses) inner
  | block _ _ inner => exact inner

end Grammar.Phrase

namespace Draft

theorem made_of_sorted {head : Head ConfigClauses MenuClauses ChoiceClauses} {node : Node}
    (sorted : Sorted head node) (keeps : Keeps head) : node.MadeOf (statements head) := by
  cases sorted with
  | entry head => exact .entry _ _ _ _ _
  | menu head => exact .menu _ _
  | choice sorted =>
      obtain ⟨prompt, found, same⟩ := Option.bind_eq_some_iff.1 sorted
      obtain rfl := Option.some.inj same
      exact .choice _ _ keeps found

theorem made_of_all {nodes : List (Head ConfigClauses MenuClauses ChoiceClauses)}
    {results : List Node} (sorted : List.Forall₂ Sorted nodes results)
    (keep : ∀ node ∈ nodes, Keeps node) :
    List.Forall₂ Node.MadeOf results (nodes.map statements) := by
  induction sorted with
  | nil => exact .nil
  | @cons head node _ _ first _ induction =>
      obtain ⟨keeps, keep⟩ := List.forall_mem_cons.1 keep
      exact .cons (made_of_sorted first keeps) (induction keep)

end Draft

namespace Root

def configs (root : Root) : List Config := root.nodes.filterMap Head.entry?

/-- What a source says is what its tree holds: its tokens can be cut into statements in one way
only, and these are, node by node, what the nodes were made of. So the headers of the source are
those of the nodes, the names behind its keywords are those that the entries hold, and there are as
many clauses as there are properties. -/
theorem parse_keeps_statements {source : String} {root : Root} (parsed : parse source = .ok root) :
    ∃ words parts, Token.ofSource source = .ok words ∧
      (∀ statements, Listing words statements ↔ statements = parts.flatten) ∧
      List.Forall₂ Node.MadeOf root.nodes parts ∧
      words.filterMap Token.opening? = parts.flatten.map Statement.keyword ∧
      words.tails.filterMap NodeHeader.read? = root.nodes.map Node.header ∧
      root.size = words.count (.keyword .config) + words.count (.keyword .menuconfig) +
        words.count (.keyword .menu) + words.count (.keyword .choice) ∧
      words.tails.filterMap (nameBehind? .select) =
        root.configs.flatMap (fun config => config.selects.map Guarded.payload) ∧
      words.tails.filterMap (nameBehind? .env) =
        root.configs.flatMap (fun config => config.env.map Guarded.payload) ∧
      words.count (.keyword .default) = (root.nodes.flatMap Node.defaults).length ∧
      words.count (.keyword .range) = (root.configs.flatMap Config.ranges).length ∧
      words.count (.keyword .depends) = (parts.flatten.filterMap fun statement =>
        statement.property?.bind Property.dependsOn?).length := by
  obtain ⟨words, drafts, symbols, read, holds, found, rfl⟩ := parse_eq_ok_iff.1 parsed
  have listing := listing_of_source holds
  have sorted := Draft.sorted_symbols (Draft.symbols_eq_ok_iff.1 found)
  have made := Draft.made_of_all sorted (all_keep holds.stands)
  have flat : Draft.said drafts = ((drafts.flatMap heads).map Draft.statements).flatten :=
    List.flatMap_def
  rw [flat] at listing
  have headers := Node.MadeOf.headers made
  refine ⟨words, (drafts.flatMap heads).map Draft.statements, read, ?_, made, listing.keywords,
    ?_, ?_, ?_, ?_, ?_, ?_, ?_⟩
  · intro statements
    constructor
    · exact fun other => other.unique listing
    · rintro rfl
      exact listing
  · rw [listing.headers, ← headers]
    rfl
  · rw [Root.size_eq_length, ← listing.count_headers, ← headers, List.length_map]
    rfl
  · rw [listing.select_names, ← Node.MadeOf.selects made]
    rfl
  · rw [listing.env_names, ← Node.MadeOf.env_names made]
    rfl
  · have defaults := listing.count_clauses .default Property.default? (by decide)
      fun property => by cases property <;> rfl
    rw [defaults, ← Node.MadeOf.all_defaults made]
    rfl
  · have ranges := listing.count_clauses .range Property.range? (by decide)
      fun property => by cases property <;> rfl
    rw [ranges, ← Node.MadeOf.ranges made]
    rfl
  · exact listing.count_clauses .depends Property.dependsOn? (by decide)
      fun property => by cases property <;> rfl

/-- A menu with a conditional block, a choice with two prompts in it, and an entry that selects. -/
def wifiSource : String :=
  "menu \"Net\" \x7b depends on [A] config WIFI boolean \x7b select MAC if[B] default [y] \x7d " ++
  "if [C] \x7b choice tristate optional \x7b prompt \"First\" depends on [D] prompt \"Second\" " ++
  "config PATH string \x7b env HOME \x7d \x7d \x7d \x7d"

def wifiRoot : Root := .ofChildren [.menu ⟨"Net", .id "A"⟩ [
  .entry ⟨"WIFI", false, .boolean, .yes, none, [⟨.yes, .yes⟩], [⟨"MAC", .id "B"⟩], [], [], []⟩ [],
  .choice ⟨⟨"First", .yes⟩, false, false, [], [.id "D"]⟩
    [(⟨"PATH", false, .string, .yes, none, [], [], [], [], [⟨"HOME", .yes⟩]⟩, [])]]]

theorem parse_keeps_statements_of_wifi : parse wifiSource = .ok wifiRoot ∧
    ∃ words, Token.ofSource wifiSource = .ok words ∧
      words.tails.filterMap NodeHeader.read? =
        [.menu "Net", .entry false "WIFI" .boolean, .choice false true,
          .entry false "PATH" .string] ∧
      words.tails.filterMap (nameBehind? .select) = ["MAC"] ∧
      words.tails.filterMap (nameBehind? .env) = ["HOME"] ∧
      words.count (.keyword .default) = 1 := by
  have parsed : parse wifiSource = .ok wifiRoot := by decide +kernel
  obtain ⟨words, parts, read, -, -, -, headers, -, selects, env, defaults, -⟩ :=
    parse_keeps_statements parsed
  exact ⟨parsed, words, read, headers, selects, env, defaults⟩

end Root

end KernelMenu

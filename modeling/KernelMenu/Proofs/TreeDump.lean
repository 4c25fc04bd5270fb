import KernelMenu.Proofs.DumpReading
import KernelMenu.Proofs.TreeReading

/-!
What the tag dump of a tree tells. Two trees that were read have the same dump just if they differ
in nothing but the conditions of the prompts of their choices.
-/

namespace KernelMenu

open Dump

namespace Symbol

/-- The symbol without the conditions of the prompts of its choices. -/
def unguarded : Symbol → Symbol := Outline.fold {
  entry := .entry
  menu := .menu
  choice choice options := .choice choice.unguarded options }

theorem unguarded_entry (config : Config) (children : List Symbol) :
    unguarded (.entry config children) = .entry config (children.map unguarded) :=
  Outline.fold_entry _ config children

theorem unguarded_menu (title : Guarded String) (children : List Symbol) :
    unguarded (.menu title children) = .menu title (children.map unguarded) :=
  Outline.fold_menu _ title children

theorem unguarded_choice (choice : Choice) (options : List (Config × List Symbol)) :
    unguarded (.choice choice options) = .choice choice.unguarded
      (options.map fun option => (option.1, option.2.map unguarded)) :=
  Outline.fold_choice _ choice options

theorem element_entry (config : Config) (children : List Symbol) :
    element (.entry config children) = configElement config (children.map element) :=
  Outline.fold_entry _ config children

theorem element_menu (title : Guarded String) (children : List Symbol) :
    element (.menu title children) = menuElement title (children.map element) :=
  Outline.fold_menu _ title children

theorem element_choice (choice : Choice) (options : List (Config × List Symbol)) :
    element (.choice choice options) = choiceElement choice
      (options.map fun option => configElement option.1 (option.2.map element)) := by
  rw [element, Outline.fold_choice]
  dsimp only
  rw [List.map_map]
  rfl

/-- The element of a choice leaves the condition of the prompt out. -/
theorem element_unguarded (symbol : Symbol) : symbol.unguarded.element = symbol.element := by
  have below : ∀ {children : List Symbol},
      (∀ child ∈ children, child.unguarded.element = child.element) →
      (children.map unguarded).map element = children.map element := by
    intro children same
    rw [List.map_map]
    exact List.map_congr_left same
  induction symbol using Outline.induct with
  | atEntry config children induction =>
      rw [unguarded_entry, element_entry, element_entry, below induction]
  | atMenu title children induction =>
      rw [unguarded_menu, element_menu, element_menu, below induction]
  | atChoice choice options induction =>
      rw [unguarded_choice, element_choice, element_choice, List.map_map]
      have same : options.map ((fun option => configElement option.1 (option.2.map element)) ∘
          fun option => (option.1, option.2.map unguarded)) =
            options.map fun option => configElement option.1 (option.2.map element) :=
        List.map_congr_left fun option member => by
          rw [Function.comp_apply, below (induction option member)]
      rw [same]
      rfl

theorem config_element_ne {config : Config} {children : List Element} {other : Element}
    (apart : other.tag ∉ ["config", "menuconfig"]) : configElement config children ≠ other := by
  rintro rfl
  apply apart
  change config.keyword.spelling ∈ _
  unfold Config.keyword
  split <;> decide

theorem element_of_entry {config : Config} {children : List Symbol} {other : Symbol}
    (same : configElement config (children.map element) = other.element) :
    ∃ config' children', other = .entry config' children' := by
  cases other with
  | entry config' children' => exact ⟨config', children', rfl⟩
  | menu title children' =>
      rw [element_menu] at same
      exact absurd same (config_element_ne (show "menu" ∉ _ by decide))
  | choice choice options =>
      rw [element_choice] at same
      exact absurd same (config_element_ne (show "choice" ∉ _ by decide))

theorem element_of_menu {title : Guarded String} {children : List Symbol} {other : Symbol}
    (same : menuElement title (children.map element) = other.element) :
    ∃ title' children', other = .menu title' children' := by
  cases other with
  | entry config children' =>
      rw [element_entry] at same
      exact absurd same.symm (config_element_ne (show "menu" ∉ _ by decide))
  | menu title' children' => exact ⟨title', children', rfl⟩
  | choice choice options =>
      rw [element_choice] at same
      exact nomatch (Element.node.inj same).1

theorem element_of_choice {choice : Choice} {elements : List Element} {other : Symbol}
    (same : choiceElement choice elements = other.element) :
    ∃ choice' options, other = .choice choice' options := by
  cases other with
  | entry config children =>
      rw [element_entry] at same
      exact absurd same.symm (config_element_ne (show "choice" ∉ _ by decide))
  | menu title children =>
      rw [element_menu] at same
      exact nomatch (Element.node.inj same).1
  | choice choice' options => exact ⟨choice', options, rfl⟩

/-- Symbols with the same element differ in the prompts of their choices alone. -/
theorem element_injective {symbol other : Symbol} (wellFormed : symbol.WellFormed)
    (wellFormed' : other.WellFormed) (same : symbol.element = other.element) :
    symbol.unguarded = other.unguarded := by
  induction wellFormed generalizing other with
  | entry head _ induction =>
      rw [element_entry] at same
      obtain ⟨config', children', rfl⟩ := element_of_entry same
      cases wellFormed' with
      | entry head' below' =>
          rw [element_entry] at same
          obtain ⟨rfl, children⟩ := config_element_injective head head' same
          have below := map_eq_of_map_eq unguarded (fun child member other member' =>
            induction child member (below' other member')) children
          rw [unguarded_entry, unguarded_entry, below]
  | menu head _ induction =>
      rw [element_menu] at same
      obtain ⟨title', children', rfl⟩ := element_of_menu same
      cases wellFormed' with
      | menu head' below' =>
          rw [element_menu] at same
          obtain ⟨rfl, children⟩ := menu_element_injective head head' same
          have below := map_eq_of_map_eq unguarded (fun child member other member' =>
            induction child member (below' other member')) children
          rw [unguarded_menu, unguarded_menu, below]
  | choice head entries _ induction =>
      rw [element_choice] at same
      obtain ⟨choice', options', rfl⟩ := element_of_choice same
      cases wellFormed' with
      | choice head' entries' below' =>
          rw [element_choice] at same
          obtain ⟨heads, options⟩ := choice_element_injective head head' same
          have each := map_eq_of_map_eq (fun option => (option.1, option.2.map unguarded))
            (fun option member other member' same => by
              obtain ⟨configs, children⟩ := config_element_injective (entries option member)
                (entries' other member') same
              have below := map_eq_of_map_eq unguarded (fun child inside other' inside' =>
                induction option member child inside (below' other member' other' inside')) children
              rw [configs, below]) options
          rw [unguarded_choice, unguarded_choice, heads, each]

end Symbol

section Legible

open Element

theorem legible_condition {condition : Expr} :
    ∀ pair ∈ conditionAttribute condition, IsTag pair.1 :=
  forall_mem_unless (show IsTag "condition" by decide)

theorem legible_clause {tag text : String} {condition : Expr} (named : IsTag tag)
    (apart : tag ∉ groupTags) : (clause tag text condition).Legible :=
  .node named apart legible_condition nofun

theorem legible_property (property : Property) : property.element.Legible := by
  cases property <;> exact legible_clause (by decide) (by decide)

theorem legible_properties {properties : List Property} :
    ∀ element ∈ properties.map Property.element, element.Legible :=
  List.forall_mem_map.2 fun property _ => legible_property property

theorem legible_inherited {condition : Expr} :
    ∀ element ∈ inheritedClauses condition, element.Legible :=
  forall_mem_unless (legible_clause (by decide) (by decide))

theorem legible_group {tag : String} {items : List Element} (known : tag ∈ groupTags)
    (legible : ∀ item ∈ items, item.Legible) : ∀ element ∈ Dump.group tag items, element.Legible :=
  forall_mem_unless (.group known legible)

theorem legible_config {config : Config} {children : List Element}
    (legible : ∀ child ∈ children, child.Legible) : (configElement config children).Legible := by
  have named : IsTag config.keyword.spelling ∧ config.keyword.spelling ∉ groupTags := by
    unfold Config.keyword
    split <;> decide
  rw [config_element_eq]
  exact .node named.1 named.2 (List.forall_mem_singleton.2 (show IsTag "type" by decide))
    (List.forall_mem_append.2 ⟨legible_properties, List.forall_mem_append.2 ⟨legible_inherited,
      legible_group List.mem_cons_self legible⟩⟩)

theorem legible_menu {title : Guarded String} {children : List Element}
    (legible : ∀ child ∈ children, child.Legible) : (menuElement title children).Legible :=
  .node (by decide) (by decide) legible_condition (legible_group List.mem_cons_self legible)

theorem legible_choice {choice : Choice} {options : List Element}
    (legible : ∀ option ∈ options, option.Legible) : (choiceElement choice options).Legible := by
  rw [choiceElement, choice_inner_eq]
  have known : "options" ∈ groupTags := by decide
  exact .node (by decide) (by decide) (List.forall_mem_cons.2
    ⟨show IsTag "type" by decide, List.forall_mem_singleton.2 (show IsTag "mandatory" by decide)⟩)
    (List.forall_mem_append.2 ⟨legible_properties, legible_group known legible⟩)

theorem Symbol.legible (symbol : Symbol) : symbol.element.Legible := by
  induction symbol using Outline.induct with
  | atEntry config children induction =>
      rw [element_entry]
      exact legible_config (List.forall_mem_map.2 induction)
  | atMenu title children induction =>
      rw [element_menu]
      exact legible_menu (List.forall_mem_map.2 induction)
  | atChoice choice options induction =>
      rw [element_choice]
      exact legible_choice (List.forall_mem_map.2 fun option member =>
        legible_config (List.forall_mem_map.2 (induction option member)))

theorem Root.legible (root : Root) : root.element.Legible :=
  .node (by decide) (by decide) nofun
    (legible_group List.mem_cons_self (List.forall_mem_map.2 fun child _ => Symbol.legible child))

end Legible

namespace Root

/-- The tree without the conditions of the prompts of its choices. -/
def unguarded (root : Root) : Root := { root with children := root.children.map Symbol.unguarded }

theorem tag_dump_unguarded (root : Root) : root.unguarded.tagDump = root.tagDump := by
  have same : (root.children.map Symbol.unguarded).map Symbol.element =
      root.children.map Symbol.element := by
    rw [List.map_map]
    exact List.map_congr_left fun child _ => child.element_unguarded
  rw [tagDump, tagDump, element, element, unguarded]
  dsimp only [label]
  rw [same]

theorem unguarded_of_tag_dump {root other : Root} (wellFormed : root.WellFormed)
    (wellFormed' : other.WellFormed) (same : root.tagDump = other.tagDump) :
    root.unguarded = other.unguarded := by
  have elements := Element.write_injective root.legible other.legible same
  have children := group_injective (Element.node.inj elements).2.2.2
  have below := map_eq_of_map_eq Symbol.unguarded (fun child member other' member' =>
    Symbol.element_injective (wellFormed.children child member)
      (wellFormed'.children other' member')) children
  rw [unguarded, unguarded, below, wellFormed.prompt, wellFormed'.prompt]

/-- Trees that were read have the same dump just if they are the same but for the conditions of the
prompts of their choices. So the dump of a tree in which no such prompt has a condition is the dump
of no other tree of this kind. -/
theorem tag_dump_eq_iff {source source' : String} {root root' : Root}
    (parsed : parse source = .ok root) (parsed' : parse source' = .ok root') :
    (root.tagDump = root'.tagDump ↔ root.unguarded = root'.unguarded) ∧
    (root.unguarded = root → root'.unguarded = root' →
      (root.tagDump = root'.tagDump ↔ root = root')) := by
  have dumps : root.tagDump = root'.tagDump ↔ root.unguarded = root'.unguarded := by
    constructor
    · exact unguarded_of_tag_dump (well_formed_of_parse parsed) (well_formed_of_parse parsed')
    · intro same
      rw [← root.tag_dump_unguarded, same, root'.tag_dump_unguarded]
  refine ⟨dumps, fun free free' => ?_⟩
  rw [dumps, free, free']

def envRoot (condition : Expr) : Root :=
  .ofChildren [.entry ⟨"A", false, .hex, .yes, none, [], [], [], [], [⟨"B", condition⟩]⟩ []]

/-- The condition of a name is told. -/
theorem tag_dump_of_env :
    parse "config A hex\x7benv B if[C]\x7d" = .ok (envRoot (.id "C")) ∧
    parse "config A hex\x7benv B\x7d" = .ok (envRoot .yes) ∧
    (envRoot (.id "C")).tagDump ≠ (envRoot .yes).tagDump := by
  have parsed : parse "config A hex\x7benv B if[C]\x7d" = .ok (envRoot (.id "C")) := by
    decide +kernel
  have parsed' : parse "config A hex\x7benv B\x7d" = .ok (envRoot .yes) := by decide +kernel
  have told := (tag_dump_eq_iff parsed parsed').2 rfl rfl
  exact ⟨parsed, parsed', fun same => absurd (told.1 same) (by decide)⟩

def promptRoot (condition : Expr) : Root :=
  .ofChildren [.choice ⟨⟨"C", condition⟩, true, true, [], []⟩ []]

/-- The condition of the prompt of a choice is not told. -/
theorem tag_dump_of_prompt :
    parse "choice boolean\x7bprompt\"C\"if[A]\x7d" = .ok (promptRoot (.id "A")) ∧
    parse "choice boolean\x7bprompt\"C\"\x7d" = .ok (promptRoot .yes) ∧
    (promptRoot (.id "A")).tagDump = (promptRoot .yes).tagDump ∧
    promptRoot (.id "A") ≠ promptRoot .yes := by
  refine ⟨by decide +kernel, by decide +kernel, rfl, by decide⟩

end Root

end KernelMenu

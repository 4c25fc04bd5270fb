import KernelMenu.Dump
import KernelMenu.Proofs.Acceptance
import KernelMenu.Proofs.DraftReading
import KernelMenu.Proofs.DraftSorting
import KernelMenu.Proofs.ExpressionPrinting
import KernelMenu.Proofs.MarkupReading

/-!
What the elements of a dump tell: conditions and values can be read from their text, clauses from
their elements, and so the heads of nodes, but for the condition of the prompt of a choice.
-/

namespace KernelMenu

open Piece Dump

section Text

theorem Grammar.Phrase.source_of_expression {word : List Token} {value : Expr}
    (holds : Expression word value) :
    Source ([.keyword .config, .ident "A", .keyword .hex, .mark .openBrace, .keyword .inherited,
      .mark .openBracket] ++ word ++ [.mark .closeBracket, .mark .closeBrace])
      [.entry ⟨"A", false, .hex, [], some value⟩ []] := by
  have entry := Config.body (.config "A" .hex) .nil (.some (.intro (.intro (.some holds)))) .nil
  have whole := Source.intro (.cons (.config entry) .nil)
  simpa [ValueType.keyword] using whole

theorem Grammar.Phrase.expression_unique {word : List Token} {value value' : Expr}
    (holds : Expression word value) (holds' : Expression word value') : value = value' := by
  have same := source_unique (source_of_expression holds) (source_of_expression holds')
  simpa using same

/-- Readable print-outs with the same text have the same tokens. -/
theorem tokens_of_render {left right : List Piece} (readable : Readable left)
    (readable' : Readable right) (same : render left = render right) :
    tokens left = tokens right := by
  obtain ⟨lexemes, scanned, found⟩ := of_source_render (readable [] nofun)
  obtain ⟨lexemes', scanned', found'⟩ := of_source_render (readable' [] nofun)
  rw [same, scanned'] at scanned
  obtain rfl := Except.ok.inj scanned
  rw [← found, ← found']

theorem Expr.eq_of_tokens {left right : Expr} (wellFormed : left.WellFormed)
    (wellFormed' : right.WellFormed) (same : tokens left.pieces = tokens right.pieces) :
    left = right := by
  have holds := expression_of_pieces wellFormed
  rw [same] at holds
  exact Grammar.Phrase.expression_unique holds (expression_of_pieces wellFormed')

theorem Expr.text_injective {left right : Expr} (wellFormed : left.WellFormed)
    (wellFormed' : right.WellFormed) (same : left.text = right.text) : left = right :=
  eq_of_tokens wellFormed wellFormed'
    (tokens_of_render (readable_pieces wellFormed).1 (readable_pieces wellFormed').1 same)

theorem Bounds.text_injective {left right : Bounds} (wellFormed : left.WellFormed)
    (wellFormed' : right.WellFormed)
    (same : left.low.text ++ " " ++ left.high.text = right.low.text ++ " " ++ right.high.text) :
    left = right := by
  have readable : ∀ {bounds : Bounds}, bounds.WellFormed →
      Readable (bounds.low.pieces ++ space :: bounds.high.pieces) := fun wellFormed =>
    readable_around_space (Expr.readable_pieces wellFormed.low).1
      (Expr.readable_pieces wellFormed.high).1
  have printed : ∀ bounds : Bounds, render (bounds.low.pieces ++ space :: bounds.high.pieces) =
      bounds.low.text ++ " " ++ bounds.high.text := by
    intro bounds
    simp [render, Expr.text, space, text, String.append_assoc]
  have single : ∀ {bounds : Bounds}, bounds.WellFormed → (tokens bounds.low.pieces).length = 1 := by
    intro bounds wellFormed
    obtain ⟨word, pieces, -⟩ := Expr.leaf_token wellFormed.low wellFormed.lowLeaf
    rw [pieces]
    rfl
  rw [← printed, ← printed] at same
  have found := tokens_of_render (readable wellFormed) (readable wellFormed') same
  rw [tokens_append, tokens_append, space, tokens_gap, tokens_gap] at found
  obtain ⟨low, high⟩ := List.append_inj found ((single wellFormed).trans (single wellFormed').symm)
  have lows := Expr.eq_of_tokens wellFormed.low wellFormed'.low low
  have highs := Expr.eq_of_tokens wellFormed.high wellFormed'.high high
  cases left
  cases right
  dsimp only at lows highs
  rw [lows, highs]

end Text

section Clauses

/-- What stands in a dump only now and then tells whether it stands there. -/
theorem unless_cases {Item : Type} {absent absent' : Bool} {item item' : Item}
    (same : (if absent then [] else [item]) = if absent' then [] else [item']) :
    (absent = true ∧ absent' = true) ∨ item = item' := by
  split at same
  case isTrue none =>
    split at same
    case isTrue none' => exact .inl ⟨none, none'⟩
    case isFalse => cases same
  case isFalse =>
    split at same
    case isTrue => cases same
    case isFalse => exact .inr (List.singleton_inj.1 same)

theorem forall_mem_unless {Item : Type} {absent : Bool} {item : Item} {valid : Item → Prop}
    (holds : valid item) : ∀ found ∈ (if absent then [] else [item]), valid found := by
  split
  · exact List.forall_mem_nil _
  · exact List.forall_mem_singleton.2 holds

theorem unless_yes_injective {Item : Type} {item : String → Item}
    (injective : ∀ left right, item left = item right → left = right) {left right : Expr}
    (wellFormed : left.WellFormed) (wellFormed' : right.WellFormed)
    (same : (if left.isYes then [] else [item left.text]) =
      if right.isYes then [] else [item right.text]) : left = right := by
  rcases unless_cases same with ⟨isYes, isYes'⟩ | same
  · rw [Expr.eq_yes_of_is_yes isYes, Expr.eq_yes_of_is_yes isYes']
  · exact Expr.text_injective wellFormed wellFormed' (injective _ _ same)

theorem condition_attribute_injective {left right : Expr} (wellFormed : left.WellFormed)
    (wellFormed' : right.WellFormed) (same : conditionAttribute left = conditionAttribute right) :
    left = right :=
  unless_yes_injective (fun _ _ same => (Prod.mk.inj same).2) wellFormed wellFormed' same

theorem clause_injective {tag tag' text text' : String} {condition condition' : Expr}
    (wellFormed : condition.WellFormed) (wellFormed' : condition'.WellFormed)
    (same : clause tag text condition = clause tag' text' condition') :
    tag = tag' ∧ text = text' ∧ condition = condition' := by
  obtain ⟨tags, attributes, texts, -⟩ := Element.node.inj same
  exact ⟨tags, texts, condition_attribute_injective wellFormed wellFormed' attributes⟩

/-- A clause tells its payload and the condition under which it counts. -/
theorem guarded_injective {Payload : Type} {valid : Payload → Prop} {print : Payload → String}
    (injective : ∀ left right, valid left → valid right → print left = print right → left = right)
    {tag : String} {left right : Guarded Payload} (wellFormed : left.WellFormed valid)
    (wellFormed' : right.WellFormed valid)
    (same : clause tag (print left.payload) left.condition =
      clause tag (print right.payload) right.condition) : left = right := by
  obtain ⟨-, texts, conditions⟩ :=
    clause_injective wellFormed.condition wellFormed'.condition same
  have payloads := injective _ _ wellFormed.payload wellFormed'.payload texts
  cases left
  cases right
  dsimp only at payloads conditions
  rw [payloads, conditions]

theorem depends_clause_injective {left right : Expr} (wellFormed : left.WellFormed)
    (wellFormed' : right.WellFormed) (same : dependsClause left = dependsClause right) :
    left = right :=
  Expr.text_injective wellFormed wellFormed' (clause_injective .yes .yes same).2.1

def Property.element : Property → Element
  | .prompt text => textClause "prompt" text
  | .dependsOn condition => dependsClause condition
  | .default value => defaultClause value
  | .range bounds => rangeClause bounds
  | .select target => textClause "select" target
  | .env name => textClause "env" name

def Property.tag : Property → String
  | .prompt _ => "prompt"
  | .dependsOn _ => "depends"
  | .default _ => "default"
  | .range _ => "range"
  | .select _ => "select"
  | .env _ => "env"

def Element.tag : Element → String
  | .node tag _ _ _ | .group tag _ => tag

theorem Property.element_tag (property : Property) : property.element.tag = property.tag := by
  cases property <;> rfl

theorem Property.element_injective {left right : Property} (wellFormed : left.WellFormed)
    (wellFormed' : right.WellFormed) (same : left.element = right.element) : left = right := by
  have tags := congrArg Element.tag same
  rw [element_tag, element_tag] at tags
  have plain : ∀ {valid : String → Prop} (left right : String), valid left → valid right →
      left = right → left = right := fun _ _ _ _ same => same
  cases left with
  | prompt =>
      cases right with
      | prompt => rw [guarded_injective plain wellFormed wellFormed' same]
      | _ => simp [tag] at tags
  | dependsOn =>
      cases right with
      | dependsOn => rw [depends_clause_injective wellFormed wellFormed' same]
      | _ => simp [tag] at tags
  | default =>
      cases right with
      | default =>
          rw [guarded_injective (fun _ _ => Expr.text_injective) wellFormed wellFormed' same]
      | _ => simp [tag] at tags
  | range =>
      cases right with
      | range =>
          rw [guarded_injective (fun _ _ => Bounds.text_injective) wellFormed wellFormed' same]
      | _ => simp [tag] at tags
  | select =>
      cases right with
      | select => rw [guarded_injective plain wellFormed wellFormed' same]
      | _ => simp [tag] at tags
  | env =>
      cases right with
      | env => rw [guarded_injective plain wellFormed wellFormed' same]
      | _ => simp [tag] at tags

theorem inherited_clauses_injective {left right : Expr} (wellFormed : left.WellFormed)
    (wellFormed' : right.WellFormed) (same : inheritedClauses left = inheritedClauses right) :
    left = right :=
  unless_yes_injective (fun _ _ same => (clause_injective .yes .yes same).2.1) wellFormed
    wellFormed' same

end Clauses

section Lists

theorem map_eq_of_map_eq {Source Print View : Type} {print : Source → Print} (view : Source → View)
    {left right : List Source}
    (each : ∀ item ∈ left, ∀ other ∈ right, print item = print other → view item = view other)
    (same : left.map print = right.map print) : left.map view = right.map view := by
  induction left generalizing right with
  | nil =>
      obtain rfl := List.map_eq_nil_iff.1 same.symm
      rfl
  | cons item left induction =>
      cases right with
      | nil => exact nomatch same
      | cons other right =>
          obtain ⟨first, rest⟩ := List.cons.inj same
          have heads := each item List.mem_cons_self other List.mem_cons_self first
          have tails := induction (fun item inside other inside' =>
            each item (List.mem_cons_of_mem _ inside) other (List.mem_cons_of_mem _ inside')) rest
          rw [List.map_cons, List.map_cons, heads, tails]

theorem eq_of_map_eq {Source Print : Type} {print : Source → Print} {left right : List Source}
    (each : ∀ item ∈ left, ∀ other ∈ right, print item = print other → item = other)
    (same : left.map print = right.map print) : left = right := by
  simpa using map_eq_of_map_eq id each same

/-- Elements with certain tags in front of elements with other tags. -/
theorem split_by_tags (tags : List String) {front front' back back' : List Element}
    (same : front ++ back = front' ++ back') (inside : ∀ element ∈ front, element.tag ∈ tags)
    (inside' : ∀ element ∈ front', element.tag ∈ tags)
    (outside : ∀ element ∈ back, element.tag ∉ tags)
    (outside' : ∀ element ∈ back', element.tag ∉ tags) : front = front' ∧ back = back' := by
  apply run_cancel (fun element => element.tag ∈ tags) same
  · exact fun element member => decide_eq_true (inside element member)
  · exact fun element member => decide_eq_true (inside' element member)
  · exact fun element first => decide_eq_false (outside element (List.mem_of_head? first))
  · exact fun element first => decide_eq_false (outside' element (List.mem_of_head? first))

theorem group_injective {tag : String} {items items' : List Element}
    (same : group tag items = group tag items') : items = items' := by
  rcases unless_cases same with ⟨none, none'⟩ | same
  · rw [List.isEmpty_iff.1 none, List.isEmpty_iff.1 none']
  · exact (Element.group.inj same).2

theorem group_tag {tag : String} {items : List Element} :
    ∀ element ∈ group tag items, element.tag = tag :=
  forall_mem_unless rfl

theorem inherited_tag {condition : Expr} :
    ∀ element ∈ inheritedClauses condition, element.tag = "inherited" :=
  forall_mem_unless rfl

end Lists

section Heads

def propertyTags : List String := ["prompt", "depends", "default", "range", "select", "env"]

theorem Property.elements_tag {properties : List Property} :
    ∀ element ∈ properties.map Property.element, element.tag ∈ propertyTags := by
  intro element member
  obtain ⟨property, -, rfl⟩ := List.mem_map.1 member
  rw [element_tag]
  cases property <;> simp [tag, propertyTags]

theorem Config.WellFormed.clauses {config : Config} (wellFormed : config.WellFormed) :
    ∀ property ∈ config.clauses.properties, property.WellFormed := by
  intro property member
  simp only [Config.clauses, List.mem_append, List.mem_map, Option.mem_toList] at member
  rcases member with ((((⟨text, inside, rfl⟩ | ⟨condition, inside, rfl⟩) | ⟨value, inside, rfl⟩) |
    ⟨bounds, inside, rfl⟩) | ⟨target, inside, rfl⟩) | ⟨name, inside, rfl⟩
  · exact wellFormed.prompt text inside
  · exact wellFormed.dependsOn condition inside
  · exact wellFormed.defaults value inside
  · exact wellFormed.ranges bounds inside
  · exact wellFormed.selects target inside
  · exact wellFormed.env name inside

theorem config_element_eq (config : Config) (children : List Element) :
    configElement config children = .node config.keyword.spelling [("type", config.type.text)]
      config.name (config.clauses.properties.map Property.element ++
        (inheritedClauses config.inherited ++ group "children" children)) := by
  simp [configElement, Config.clauses, Function.comp_def, Property.element]

theorem ValueType.text_injective {left right : ValueType} (same : left.text = right.text) :
    left = right := by
  have keywords := Keyword.spelling_injective same
  cases left <;> cases right <;> cases keywords <;> rfl

theorem Config.is_menu_of_keyword {left right : Config}
    (same : left.keyword.spelling = right.keyword.spelling) : left.isMenu = right.isMenu := by
  have keywords := Keyword.spelling_injective same
  unfold Config.keyword at keywords
  split at keywords <;> split at keywords <;> simp_all

theorem config_element_injective {left right : Config} (wellFormed : left.WellFormed)
    (wellFormed' : right.WellFormed) {children children' : List Element}
    (same : configElement left children = configElement right children') :
    left = right ∧ children = children' := by
  rw [config_element_eq, config_element_eq] at same
  obtain ⟨tags, attributes, names, inner⟩ := Element.node.inj same
  have kinds := Config.is_menu_of_keyword tags
  have types := ValueType.text_injective (Prod.mk.inj (List.cons.inj attributes).1).2
  -- The tags part the clauses from the inherited condition, and this one from the group.
  have behind : ∀ {condition : Expr} {items : List Element},
      ∀ element ∈ inheritedClauses condition ++ group "children" items,
        element.tag ∉ propertyTags := by
    intro condition items element member
    rcases List.mem_append.1 member with member | member
    · rw [inherited_tag element member]
      decide
    · rw [group_tag element member]
      decide
  have grouped : ∀ {items : List Element}, ∀ element ∈ group "children" items,
      element.tag ∉ ["inherited"] := by
    intro items element member
    rw [group_tag element member]
    decide
  have alone : ∀ {condition : Expr}, ∀ element ∈ inheritedClauses condition,
      element.tag ∈ ["inherited"] := fun element member =>
    List.mem_singleton.2 (inherited_tag element member)
  obtain ⟨clauses, rest⟩ := split_by_tags propertyTags inner Property.elements_tag
    Property.elements_tag behind behind
  obtain ⟨last, groups⟩ := split_by_tags ["inherited"] rest alone alone grouped grouped
  have properties := eq_of_map_eq (fun _ inside _ inside' => Property.element_injective
    (wellFormed.clauses _ inside) (wellFormed'.clauses _ inside')) clauses
  have inherited := inherited_clauses_injective wellFormed.inherited wellFormed'.inherited last
  have drafts : left.clauses = right.clauses := calc
    left.clauses = ⟨left.name, left.isMenu, left.type, left.clauses.properties,
        left.inherited.unlessYes⟩ := rfl
    _ = ⟨right.name, right.isMenu, right.type, right.clauses.properties,
        right.inherited.unlessYes⟩ := by rw [names, kinds, types, properties, inherited]
  refine ⟨?_, group_injective groups⟩
  rw [← left.sorted_clauses, drafts, right.sorted_clauses]

theorem menu_element_injective {left right : Guarded String} (wellFormed : left.WellFormed IsText)
    (wellFormed' : right.WellFormed IsText) {children children' : List Element}
    (same : menuElement left children = menuElement right children') :
    left = right ∧ children = children' := by
  obtain ⟨-, attributes, titles, inner⟩ := Element.node.inj same
  have conditions :=
    condition_attribute_injective wellFormed.condition wellFormed'.condition attributes
  refine ⟨?_, group_injective inner⟩
  cases left
  cases right
  dsimp only at titles conditions
  rw [titles, conditions]

/-- The choice without the condition of its prompt. -/
def Choice.unguarded (choice : Choice) : Choice :=
  { choice with prompt := ⟨choice.prompt.payload, .yes⟩ }

/-- The clauses in the element of a choice. -/
def Choice.dumped (choice : Choice) : List Property :=
  choice.dependsOn.map .dependsOn ++ choice.defaults.map .default

theorem Choice.WellFormed.dumped {choice : Choice} (wellFormed : choice.WellFormed) :
    ∀ property ∈ choice.dumped, property.WellFormed := by
  intro property member
  simp only [Choice.dumped, List.mem_append, List.mem_map] at member
  rcases member with ⟨condition, inside, rfl⟩ | ⟨value, inside, rfl⟩
  · exact wellFormed.dependsOn condition inside
  · exact wellFormed.defaults value inside

theorem choice_inner_eq (choice : Choice) (options : List Element) :
    choice.dependsOn.map dependsClause ++ choice.defaults.map defaultClause ++
        group "options" options =
      choice.dumped.map Property.element ++ group "options" options := by
  simp [Choice.dumped, Function.comp_def, Property.element]

theorem choice_element_injective {left right : Choice} (wellFormed : left.WellFormed)
    (wellFormed' : right.WellFormed) {options options' : List Element}
    (same : choiceElement left options = choiceElement right options') :
    left.unguarded = right.unguarded ∧ options = options' := by
  obtain ⟨-, attributes, texts, inner⟩ := Element.node.inj same
  obtain ⟨first, second⟩ := List.cons.inj attributes
  have types := ValueType.text_injective (Prod.mk.inj first).2
  have isBoolean : left.isBoolean = right.isBoolean := by
    unfold Choice.type at types
    split at types <;> split at types <;> simp_all
  have isMandatory : left.isMandatory = right.isMandatory := by
    have marks := (Prod.mk.inj (List.cons.inj second).1).2
    split at marks <;> split at marks <;> simp_all
  rw [choice_inner_eq, choice_inner_eq] at inner
  have grouped : ∀ {items : List Element}, ∀ element ∈ group "options" items,
      element.tag ∉ propertyTags := by
    intro items element member
    rw [group_tag element member]
    decide
  obtain ⟨clauses, groups⟩ := split_by_tags propertyTags inner Property.elements_tag
    Property.elements_tag grouped grouped
  have properties := eq_of_map_eq (fun _ inside _ inside' => Property.element_injective
    (wellFormed.dumped _ inside) (wellFormed'.dumped _ inside')) clauses
  have dependsOn : left.dependsOn = right.dependsOn := by
    have kept := congrArg (List.filterMap Property.dependsOn?) properties
    simpa [Choice.dumped, Function.comp_def, Property.dependsOn?, List.filterMap_none] using kept
  have defaults : left.defaults = right.defaults := by
    have kept := congrArg (List.filterMap Property.default?) properties
    simpa [Choice.dumped, Function.comp_def, Property.default?, List.filterMap_none] using kept
  refine ⟨?_, group_injective groups⟩
  rw [Choice.unguarded, Choice.unguarded, texts, isBoolean, isMandatory, defaults, dependsOn]

end Heads

end KernelMenu

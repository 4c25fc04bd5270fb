import KernelMenu.Proofs.StatementOrder
import KernelMenu.Proofs.StatementReading

/-!
Where the choices of a source stand. The choices of what a source stands for are its choice blocks,
at any depth, and they come in the order of their keywords.
-/

namespace KernelMenu

open Grammar Phrase Outline

namespace Grammar.Phrase

/-- A choice block of a source stands behind the tokens in front, where a symbol may stand, and has
these clauses. -/
inductive ChoiceBlock : List Token → List Token → List Property → Prop
  | intro {front back clauses entries : List Token} {properties : List Property}
      {options : List (ConfigClauses × List Draft)} (type : ValueType) (isOptional : Bool) :
      Place .symbols front back → Star ChoiceClause clauses properties →
      Star Config entries options →
      ChoiceBlock (front ++ (.keyword .choice :: .keyword type.keyword ::
          (if isOptional then [.keyword .optional] else []) ++
          .mark .openBrace :: clauses ++ entries ++ [.mark .closeBrace]) ++ back) front properties

end Grammar.Phrase

theorem Draft.count_choice_of_clauses (properties : List Property) :
    ((properties.map Statement.clause).map Statement.keyword).count .choice = 0 := by
  apply List.count_eq_zero_of_not_mem
  intro member
  rw [List.map_map] at member
  obtain ⟨property, -, same⟩ := List.mem_map.1 member
  cases property <;> exact nomatch same

theorem Draft.count_choice_of_node (node : Head ConfigClauses MenuClauses ChoiceClauses) :
    ((statements node).map Statement.keyword).count .choice = node.choice?.toList.length := by
  cases node with
  | entry head =>
      obtain ⟨name, isMenu, type, properties, inherited⟩ := head
      have clauses := count_choice_of_clauses properties
      rw [statements, List.map_cons, List.map_append, List.count_cons, List.count_append, clauses]
      cases isMenu <;> cases inherited <;> rfl
  | menu head =>
      obtain ⟨title, dependsOn⟩ := head
      cases dependsOn <;> rfl
  | choice head =>
      have clauses := count_choice_of_clauses head.properties
      rw [statements, List.map_cons, List.count_cons, clauses]
      rfl

theorem Draft.count_choices (nodes : List (Head ConfigClauses MenuClauses ChoiceClauses)) :
    ((nodes.flatMap statements).map Statement.keyword).count .choice =
      (nodes.filterMap Head.choice?).length := by
  induction nodes with
  | nil => rfl
  | cons node nodes induction =>
      rw [List.flatMap_cons, List.map_append, List.count_append, count_choice_of_node, induction,
        ← List.singleton_append, List.filterMap_append, List.length_append]
      cases node <;> rfl

/-- How many choices begin among the tokens. -/
def choicesIn (word : List Token) : Nat := word.count (.keyword .choice)

theorem choices_in_append (front back : List Token) :
    choicesIn (front ++ back) = choicesIn front + choicesIn back := List.count_append

theorem choices_in_source {word : List Token} {drafts : List Draft}
    (holds : Source word drafts) : choicesIn word = (drafts.flatMap choices).length := by
  rw [choicesIn, (listing_of_source holds).count_keyword rfl, Draft.said, Draft.count_choices,
    flat_map_choices fun draft _ => draft.choices_eq]

namespace Grammar.Phrase

theorem choices_in_within {kinds : List Kind} {word : List Token} (within : Within kinds word)
    (other : .keyword .choice ∉ kinds) : choicesIn word = 0 :=
  List.count_eq_zero_of_not_mem (within.not_mem other)

section Counts

variable (front : List Token)

theorem choices_in_menu (title : String) {depends : List Token} {condition : Option Expr}
    (dependency : Maybe Dependency depends condition) :
    choicesIn (front ++ .keyword .menu :: .text title :: .mark .openBrace :: depends) =
      choicesIn front := by
  have plain : choicesIn depends = 0 :=
    choices_in_within (dependency_clauses.maybe.within depends _ dependency) (by decide)
  rw [choices_in_append]
  exact congrArg (choicesIn front + ·) plain

theorem choices_in_block {guard : List Token} {condition : Expr} (guarded : Guard guard condition) :
    choicesIn (front ++ guard ++ [.mark .openBrace]) = choicesIn front := by
  have plain : choicesIn guard = 0 := choices_in_within (guard_within guarded) (by decide)
  rw [choices_in_append, choices_in_append, plain]
  rfl

theorem choices_in_choice (type : ValueType) (isOptional : Bool) {clauses : List Token}
    {properties : List Property} (holds : Star ChoiceClause clauses properties) :
    choicesIn (front ++ .keyword .choice :: .keyword type.keyword ::
        (if isOptional then [.keyword .optional] else []) ++ .mark .openBrace :: clauses) =
      choicesIn front + 1 := by
  have plain : clauses.count (.keyword .choice) = 0 :=
    choices_in_within (choice_star_clauses.within clauses _ holds) (by decide)
  rw [choicesIn, choicesIn]
  cases isOptional <;> cases type <;> simp [plain, ValueType.keyword]

theorem choices_in_entry {header clauses last : List Token} {isMenu : Bool} {name : String}
    {type : ValueType} {properties : List Property} {inherited : Option Expr}
    (head : Header header isMenu name type) (holds : Star PropertyClause clauses properties)
    (holds' : Maybe Inherited last inherited) :
    choicesIn (front ++ header ++ .mark .openBrace :: clauses ++ last) = choicesIn front := by
  have bare : choicesIn header = 0 := by
    cases head <;> cases type <;> rfl
  have plain : choicesIn (clauses ++ last) = 0 :=
    choices_in_within (entry_clauses.within _ (properties, inherited)
      ⟨_, _, rfl, holds, holds'⟩) (by decide)
  rw [List.append_assoc, List.cons_append, choices_in_append, choices_in_append, bare]
  exact congrArg (choicesIn front + 0 + ·) plain

end Counts

/-- Tokens in a source stand for these choices, behind as many others as there are keywords of
choices in front of the tokens. -/
def Chosen (front word back : List Token) (heads : List ChoiceClauses) : Prop :=
  ∃ drafts before after, Source (front ++ word ++ back) drafts ∧
    drafts.flatMap Outline.choices = before ++ heads ++ after ∧
    before.length = choicesIn front

theorem Chosen.inside {front front' word outer back back' : List Token}
    {heads : List ChoiceClauses} (before after : List ChoiceClauses)
    (chosen : Chosen front outer back (before ++ heads ++ after))
    (shape : front' ++ word ++ back' = front ++ outer ++ back)
    (count : choicesIn front' = choicesIn front + before.length) :
    Chosen front' word back' heads := by
  obtain ⟨drafts, before', after', holds, split, count'⟩ := chosen
  refine ⟨drafts, before' ++ before, after ++ after', ?_, ?_, ?_⟩
  · rwa [shape]
  · simpa only [List.append_assoc] using split
  · rw [List.length_append, count, count']

theorem Place.chosen {row : Row} {front back : List Token} (place : Place row front back)
    {word : List Token} {drafts : List Draft} (stands : row.Stands word drafts) :
    Chosen front word back (drafts.flatMap Outline.choices) := by
  -- From the inside outwards: the row becomes part of the next larger one.
  induction place generalizing word drafts with
  | source => exact ⟨drafts, [], [], by simpa using stands.source, by simp, rfl⟩
  | beside _ holds holds' induction =>
      obtain ⟨ahead, stands₁⟩ := holds.stands
      obtain ⟨behind, stands₂⟩ := holds'.stands
      have outer := induction ((stands₁.append stands).append stands₂)
      rw [List.flatMap_append, List.flatMap_append] at outer
      apply outer.inside
      · simp
      · rw [choices_in_append, choices_in_source stands₁.source]
  | menu title _ dependency induction =>
      have outer := induction (source_of_menu title dependency stands)
      rw [List.flatMap_singleton, Outline.choices_menu] at outer
      apply Chosen.inside [] [] (by simpa using outer)
      · simp
      · exact choices_in_menu _ title dependency
  | block _ guarded induction =>
      have outer := induction (source_of_block guarded stands)
      apply Chosen.inside [] [] (by simpa using outer)
      · simp
      · exact choices_in_block _ guarded
  | @choice _ _ _ properties type isOptional _ holds induction =>
      obtain ⟨options, entries, rfl⟩ := stands
      have outer := induction (source_of_symbol (.choice type isOptional holds entries))
      rw [List.flatMap_singleton, Outline.choices_choice] at outer
      apply Chosen.inside [⟨type, isOptional, properties⟩] [] (by simpa using outer)
      · simp
      · exact choices_in_choice _ type isOptional holds
  | @entry row _ _ _ _ _ _ _ _ _ _ _ head holds holds' induction =>
      have outer := induction (row.stands_of_config (config_of_source head holds holds' stands))
      rw [List.flatMap_singleton, Outline.choices_entry] at outer
      apply Chosen.inside [] [] (by simpa using outer)
      · simp
      · exact choices_in_entry _ head holds holds'

/-- A choice block is the choice of the source with the number of keywords in front of it. -/
theorem ChoiceBlock.listed {words front : List Token} {properties : List Property}
    (block : ChoiceBlock words front properties) {drafts : List Draft}
    (holds : Source words drafts) : ∃ head,
      (drafts.flatMap Outline.choices)[choicesIn front]? = some head ∧
        head.properties = properties := by
  cases block with
  | intro type isOptional place clauses entries =>
      obtain ⟨drafts', before, after, holds', split, count⟩ :=
        place.chosen (source_of_symbol (.choice type isOptional clauses entries))
      obtain rfl := source_unique holds holds'
      rw [List.flatMap_singleton, Outline.choices_choice] at split
      refine ⟨⟨type, isOptional, properties⟩, ?_, rfl⟩
      rw [split, ← count]
      simp

/-- Wherever the row may stand, these choices are choice blocks in it, in the order of their
keywords. -/
def Displays (row : Row) (word : List Token) (heads : List ChoiceClauses) : Prop :=
  ∀ front back, Place row front back → ∀ index head, heads[index]? = some head →
    ∃ place, ChoiceBlock (front ++ word ++ back) place head.properties ∧
      choicesIn place = choicesIn front + index

namespace Displays

variable {row row' : Row} {word word' : List Token} {heads heads' : List ChoiceClauses}

theorem nil : Displays row word [] := nofun

theorem append (first : Displays row word heads) (holds : row.Holds word)
    (holds' : row.Holds word') (count : choicesIn word = heads.length)
    (second : Displays row word' heads') : Displays row (word ++ word') (heads ++ heads') := by
  intro front back place index head found
  have empty : row.Holds [] := (Row.Stands.nil row).holds
  by_cases early : index < heads.length
  · rw [List.getElem?_append_left early] at found
    have inside := first _ _ (place.beside empty holds') index head found
    simpa only [List.append_nil, List.append_assoc] using inside
  · have late : heads.length ≤ index := Nat.le_of_not_lt early
    rw [List.getElem?_append_right late] at found
    have inside := second _ _ (place.beside holds empty) _ head found
    rw [choices_in_append, count, Nat.add_assoc, Nat.add_sub_cancel' late] at inside
    simpa only [List.nil_append, List.append_assoc] using inside

theorem menu (title : String) {depends : List Token} {condition : Option Expr}
    (dependency : Maybe Dependency depends condition) (inner : Displays .symbols word heads) :
    Displays .symbols (.keyword .menu :: .text title :: .mark .openBrace :: depends ++ word ++
      [.mark .closeBrace]) heads := by
  intro front back place index head found
  have inside := inner _ _ (.menu title place dependency) index head found
  rw [choices_in_menu front title dependency] at inside
  simpa only [List.append_assoc, List.cons_append, List.nil_append] using inside

theorem block {guard : List Token} {condition : Expr} (guarded : Guard guard condition)
    (inner : Displays .symbols word heads) :
    Displays .symbols (guard ++ .mark .openBrace :: word ++ [.mark .closeBrace]) heads := by
  intro front back place index head found
  have inside := inner _ _ (.block place guarded) index head found
  rw [choices_in_block front guarded] at inside
  simpa only [List.append_assoc, List.cons_append, List.nil_append] using inside

theorem entry {header clauses last : List Token} {isMenu : Bool} {name : String} {type : ValueType}
    {properties : List Property} {inherited : Option Expr} (head : Header header isMenu name type)
    (holds : Star PropertyClause clauses properties) (holds' : Maybe Inherited last inherited)
    (inner : Displays .symbols word heads) (row : Row) :
    Displays row (header ++ .mark .openBrace :: clauses ++ last ++ word ++ [.mark .closeBrace])
      heads := by
  intro front back place index choice found
  have inside := inner _ _ (.entry place head holds holds') index choice found
  rw [choices_in_entry front head holds holds'] at inside
  simpa only [List.append_assoc, List.cons_append, List.nil_append] using inside

theorem choice (type : ValueType) (isOptional : Bool) {clauses : List Token}
    {properties : List Property} {options : List (ConfigClauses × List Draft)}
    (holds : Star ChoiceClause clauses properties) (entries : Star Config word options)
    (inner : Displays .options word heads) :
    Displays .symbols (.keyword .choice :: .keyword type.keyword ::
        (if isOptional then [.keyword .optional] else []) ++
        .mark .openBrace :: clauses ++ word ++ [.mark .closeBrace])
      (⟨type, isOptional, properties⟩ :: heads) := by
  intro front back place index head found
  cases index with
  | zero =>
      obtain rfl := Option.some.inj found
      exact ⟨front, .intro type isOptional place holds entries, rfl⟩
  | succ index =>
      have inside := inner _ _ (.choice type isOptional place holds) index head found
      rw [choices_in_choice front type isOptional holds, Nat.add_assoc, Nat.add_comm 1] at inside
      simpa only [List.append_assoc, List.cons_append, List.nil_append] using inside

end Displays

theorem displays_row {row : Row} {word : List Token} {drafts : List Draft}
    (stands : row.Stands word drafts) : Displays row word (drafts.flatMap Outline.choices) := by
  induction stands using Row.Stands.induct with
  | nil row => exact .nil
  | append stands stands' first second =>
      rw [List.flatMap_append]
      exact first.append stands.holds stands'.holds (choices_in_source stands.source) second
  | bare row head =>
      rw [List.flatMap_singleton, Outline.choices_entry]
      exact .nil
  | body row head clauses last _ inner =>
      rw [List.flatMap_singleton, Outline.choices_entry]
      exact inner.entry head clauses last row
  | menu title dependency _ inner =>
      rw [List.flatMap_singleton, Outline.choices_menu]
      exact inner.menu title dependency
  | choice type isOptional clauses entries inner =>
      rw [List.flatMap_singleton, Outline.choices_choice]
      exact inner.choice type isOptional clauses entries
  | block guarded _ inner => exact inner.block guarded

/-- The choices of a source are its choice blocks. -/
theorem choice_blocks {words : List Token} {drafts : List Draft} (holds : Source words drafts)
    {index : Nat} {head : ChoiceClauses}
    (found : (drafts.flatMap Outline.choices)[index]? = some head) :
    ∃ front, ChoiceBlock words front head.properties ∧ choicesIn front = index := by
  have blocks := displays_row holds.stands [] [] .source index head found
  simpa [choicesIn] using blocks

end Grammar.Phrase

end KernelMenu

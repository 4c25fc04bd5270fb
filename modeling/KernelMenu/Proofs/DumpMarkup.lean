import KernelMenu.Proofs.MarkupGrammar
import KernelMenu.Proofs.TreeDump

/-!
The tag dump of any tree is markup, whatever strings the tree holds. It is read as the one element
that was written, and the strings in it are those of the tree.
-/

namespace KernelMenu

open Markup Dump

namespace Element

/-- Characters of the layout. -/
def blanks (count : Nat) : List Content := List.replicate count (.character ' ')

mutual

/-- What the text of an element says, the layout of its groups included. -/
def content (depth : Nat) : Element → Content
  | .node tag attributes text inner =>
      .element tag attributes (text.toList.map .character ++ contentInner depth inner)
  | .group tag items =>
      .element tag [] (.character '\n' :: (contentItems (depth + 1) items ++ blanks (2 * depth)))

def contentInner (depth : Nat) : List Element → List Content
  | [] => []
  | element :: elements => content depth element :: contentInner depth elements

def contentItems (depth : Nat) : List Element → List Content
  | [] => []
  | element :: elements =>
      blanks (2 * depth) ++ content depth element :: .character '\n' :: contentItems depth elements

end

mutual

/-- The strings that an element holds in the order in which they are written. -/
def strings : Element → List String
  | .node _ attributes text inner => attributes.map Prod.snd ++ text :: stringsInner inner
  | .group _ items => stringsInner items

def stringsInner : List Element → List String
  | [] => []
  | element :: elements => strings element ++ stringsInner elements

end

theorem strings_inner_eq (elements : List Element) :
    stringsInner elements = elements.flatMap strings := by
  induction elements with
  | nil => rfl
  | cons element elements induction => rw [stringsInner, induction, List.flatMap_cons]

section Writing

variable {depth : Nat} {elements : List Element}

theorem written_blanks (count : Nat) : Written (List.replicate count ' ') (blanks count) := by
  induction count with
  | zero => exact .nil
  | succ count induction =>
      rw [List.replicate_succ, blanks, List.replicate_succ]
      exact .char (.plain (by decide)) induction

theorem written_inner (each : ∀ element ∈ elements, ∀ depth,
    Written (write depth element).toList [content depth element]) (depth : Nat) :
    Written (writeInner depth elements).toList (contentInner depth elements) := by
  induction elements with
  | nil => exact .nil
  | cons element elements induction =>
      obtain ⟨own, others⟩ := List.forall_mem_cons.1 each
      rw [writeInner, String.toList_append, contentInner]
      exact (own depth).append (induction others)

theorem written_items (each : ∀ element ∈ elements, ∀ depth,
    Written (write depth element).toList [content depth element]) (depth : Nat) :
    Written (writeItems depth elements).toList (contentItems depth elements) := by
  induction elements with
  | nil => exact .nil
  | cons element elements induction =>
      obtain ⟨own, others⟩ := List.forall_mem_cons.1 each
      have ending : Written ('\n' :: (writeItems depth elements).toList)
          (.character '\n' :: contentItems depth elements) :=
        .char (.plain (by decide)) (induction others)
      have whole := (written_blanks (2 * depth)).append ((own depth).append ending)
      rw [contentItems]
      simpa [writeItems, indent] using whole

theorem Legible.written {element : Element} (legible : element.Legible) :
    ∀ depth, Written (write depth element).toList [content depth element] := by
  induction legible with
  | @node tag text attributes inner named _ names _ induction =>
      intro depth
      have attributesWritten := written_attributes_iff.2 ⟨names, rfl⟩
      have text := Written.of_text text.toList
      have whole := Written.element named attributesWritten
        (text.append (written_inner induction depth)) .nil
      rw [write_node, content]
      simpa [escape] using whole
  | @group tag items known _ induction =>
      intro depth
      have items := (written_items induction (depth + 1)).append (written_blanks (2 * depth))
      have inside : Written _ (.character '\n' :: _) := .char (.plain (by decide)) items
      have whole := Written.element (is_tag_of_group known) .nil inside .nil
      rw [write_group, content]
      simpa using whole

end Writing

section Strings

variable {depth : Nat} {elements : List Element}

theorem leading_inner (depth : Nat) (elements : List Element) :
    Content.leading (contentInner depth elements) = [] := by
  cases elements with
  | nil => rfl
  | cons element elements => cases element <;> rw [contentInner, content, Content.leading]

theorem strings_blanks (count : Nat) : Content.stringsInner (blanks count) = [] := by
  have chars := Content.strings_chars (List.replicate count ' ')
  rwa [List.map_replicate] at chars

theorem strings_of_inner (each : ∀ element ∈ elements, ∀ depth,
    (content depth element).strings = element.strings) (depth : Nat) :
    Content.stringsInner (contentInner depth elements) = stringsInner elements := by
  induction elements with
  | nil => rfl
  | cons element elements induction =>
      obtain ⟨own, others⟩ := List.forall_mem_cons.1 each
      rw [contentInner, Content.stringsInner, own, induction others, stringsInner]

theorem strings_of_items (each : ∀ element ∈ elements, ∀ depth,
    (content depth element).strings = element.strings) (depth : Nat) :
    Content.stringsInner (contentItems depth elements) = stringsInner elements := by
  induction elements with
  | nil => rfl
  | cons element elements induction =>
      obtain ⟨own, others⟩ := List.forall_mem_cons.1 each
      rw [contentItems, Content.strings_append, strings_blanks, Content.stringsInner, own,
        Content.stringsInner, Content.strings, induction others, stringsInner]
      rfl

/-- What the text of an element says holds the strings of the element. -/
theorem Legible.strings {element : Element} (legible : element.Legible) :
    ∀ depth, (content depth element).strings = element.strings := by
  induction legible with
  | @node tag text attributes inner _ other _ _ induction =>
      intro depth
      rw [content, Content.strings, if_neg other,
        Content.leading_chars _ (leading_inner depth inner), Content.strings_append,
        Content.strings_chars, strings_of_inner induction, Element.strings,
        String.ofList_toList]
      simp
  | @group tag items known _ induction =>
      intro depth
      rw [content, Content.strings, if_pos known, Content.stringsInner, Content.strings,
        Content.strings_append, strings_of_items induction, strings_blanks, Element.strings]
      simp

end Strings

end Element

def Expr.strings (condition : Expr) : List String := condition.unlessYes.toList.map Expr.text

def Guarded.strings {Payload : Type} (print : Payload → String) (clause : Guarded Payload) :
    List String := clause.condition.strings ++ [print clause.payload]

def Property.strings : Property → List String
  | prompt text => text.strings id
  | dependsOn condition => [condition.text]
  | default value => value.strings Expr.text
  | range bounds => bounds.strings fun ends => ends.low.text ++ " " ++ ends.high.text
  | select target => target.strings id
  | env name => name.strings id

def Config.strings (config : Config) (children : List (List String)) : List String :=
  config.type.text :: config.name :: config.clauses.properties.flatMap Property.strings ++
    config.inherited.strings ++ children.flatten

def Choice.strings (choice : Choice) (options : List (List String)) : List String :=
  choice.type.text :: (if choice.isMandatory then "true" else "false") :: choice.prompt.payload ::
    choice.dumped.flatMap Property.strings ++ options.flatten

/-- The strings of a node and of those below it in the order in which the dump tells them. -/
def Symbol.strings : Symbol → List String := Outline.fold {
  entry := Config.strings
  menu title children := title.strings id ++ children.flatten
  choice choice options :=
    choice.strings (options.map fun option => option.1.strings option.2) }

def Root.strings (root : Root) : List String :=
  root.label :: root.children.flatMap Symbol.strings

section Tree

open Element

theorem attribute_strings (condition : Expr) :
    (conditionAttribute condition).map Prod.snd = condition.strings := by
  rw [conditionAttribute, Expr.strings, Expr.unlessYes]
  split <;> rfl

theorem clause_strings (tag text : String) (condition : Expr) :
    (clause tag text condition).strings = condition.strings ++ [text] := by
  rw [clause, Element.strings, attribute_strings, stringsInner]

theorem property_strings (property : Property) : property.element.strings = property.strings := by
  cases property <;> exact clause_strings _ _ _

theorem inherited_strings (condition : Expr) :
    (inheritedClauses condition).flatMap Element.strings = condition.strings := by
  rw [inheritedClauses, Expr.strings, Expr.unlessYes]
  split
  · rfl
  · rw [List.flatMap_singleton, clause_strings]
    rfl

theorem group_strings (tag : String) (items : List Element) :
    (Dump.group tag items).flatMap Element.strings = items.flatMap Element.strings := by
  rw [Dump.group]
  split
  case isTrue none => rw [List.isEmpty_iff.1 none]
  case isFalse => rw [List.flatMap_singleton, Element.strings, strings_inner_eq]

theorem config_strings (config : Config) (children : List Element) :
    (configElement config children).strings = config.strings (children.map Element.strings) := by
  rw [config_element_eq, Element.strings, strings_inner_eq, List.flatMap_append,
    List.flatMap_append, List.flatMap_map, inherited_strings, group_strings, Config.strings,
    ← List.flatMap_def]
  simp [property_strings]

theorem menu_strings (title : Guarded String) (children : List Element) :
    (menuElement title children).strings =
      title.strings id ++ (children.map Element.strings).flatten := by
  rw [menuElement, Element.strings, attribute_strings, strings_inner_eq, group_strings,
    Guarded.strings, ← List.flatMap_def]
  simp

theorem choice_strings (choice : Choice) (options : List Element) :
    (choiceElement choice options).strings = choice.strings (options.map Element.strings) := by
  rw [choiceElement, choice_inner_eq, Element.strings, strings_inner_eq, List.flatMap_append,
    List.flatMap_map, group_strings, Choice.strings, ← List.flatMap_def]
  simp [property_strings]

theorem Symbol.element_strings (symbol : Symbol) : symbol.element.strings = symbol.strings := by
  have below : ∀ {children : List Symbol},
      (∀ child ∈ children, child.element.strings = child.strings) →
      (children.map Symbol.element).map Element.strings = children.map Symbol.strings := by
    intro children same
    rw [List.map_map]
    exact List.map_congr_left same
  induction symbol using Outline.induct with
  | atEntry config children induction =>
      rw [element_entry, config_strings, below induction, Symbol.strings, Outline.fold_entry]
  | atMenu title children induction =>
      rw [element_menu, menu_strings, below induction, Symbol.strings, Outline.fold_menu]
  | atChoice choice options induction =>
      rw [element_choice, choice_strings, Symbol.strings, Outline.fold_choice]
      dsimp only
      rw [List.map_map, List.map_map]
      refine congrArg choice.strings (List.map_congr_left fun option member => ?_)
      rw [Function.comp_apply, config_strings, below (induction option member)]
      rfl

theorem Root.element_strings (root : Root) : root.element.strings = root.strings := by
  rw [Root.element, Element.strings, strings_inner_eq, group_strings, List.flatMap_map,
    Root.strings]
  simp [Symbol.element_strings]

end Tree

namespace Root

/-- The dump is markup with just one element at the top, whatever strings the tree holds. It can be
read in this way only: as the elements that were written, with the strings of the tree in them. -/
theorem tag_dump_is_markup (root : Root) :
    (∀ text : String, (Element.escape text).toList = entities.foldl replaced text.toList) ∧
    Written root.tagDump.toList [root.element.content 0] ∧
    (∀ contents, Written root.tagDump.toList contents → contents = [root.element.content 0]) ∧
    (root.element.content 0).strings = root.strings := by
  have written := root.legible.written 0
  refine ⟨fun text => ?_, written, fun contents other => other.unique written, ?_⟩
  · rw [replaced_in_turn, Element.escape, String.toList_ofList]
  · rw [root.legible.strings 0, root.element_strings]

/-- An entry with a name and a condition that look like markup. -/
def disguised : Root := .ofChildren
  [.entry ⟨"</config>", false, .hex, .id "\"'", none, [], [], [], [], []⟩ []]

theorem tag_dump_is_markup_of_disguised : ∃ content,
    (∀ contents, contents = [content] ↔ Written
      ("<root-menu>Linux Kernel Configuration<children>\n" ++
        "  <config type=\"hex\">&lt;/config&gt;<inherited>&quot;&apos;</inherited></config>\n" ++
        "</children></root-menu>").toList contents) ∧
    content.strings = ["Linux Kernel Configuration", "hex", "</config>", "\"'"] := by
  obtain ⟨-, written, unique, strings⟩ := tag_dump_is_markup disguised
  refine ⟨_, fun contents => ⟨?_, unique contents⟩, strings⟩
  rintro rfl
  exact written

end Root

end KernelMenu

import KernelMenu.Markup
import KernelMenu.Proofs.TokenReading

/-!
The text of elements can be read in one way only. Escaped text holds no character that opens a tag
or closes a value, tags tell nodes from groups, and the items of a group are indented deeper than
its end.
-/

namespace KernelMenu.Element

/-- Items in a row are read one by one: each can be told from any other, and what ends the row can
be told from all of them. -/
theorem row_cancel {Item : Type} {print : Item → List Char} {items others : List Item}
    {stop stop' : List Char}
    (each : ∀ item ∈ items, ∀ other ∈ others, ∀ rest rest',
      print item ++ rest = print other ++ rest' → item = other ∧ rest = rest')
    (apart : ∀ other ∈ others, ∀ rest, stop ≠ print other ++ rest)
    (apart' : ∀ item ∈ items, ∀ rest, stop' ≠ print item ++ rest)
    (same : items.flatMap print ++ stop = others.flatMap print ++ stop') :
    items = others ∧ stop = stop' := by
  induction items generalizing others with
  | nil =>
      cases others with
      | nil => exact ⟨rfl, same⟩
      | cons other others =>
          rw [List.flatMap_cons, List.append_assoc] at same
          exact absurd same (apart other List.mem_cons_self _)
  | cons item items induction =>
      cases others with
      | nil =>
          rw [List.flatMap_cons, List.append_assoc] at same
          exact absurd same.symm (apart' item List.mem_cons_self _)
      | cons other others =>
          rw [List.flatMap_cons, List.flatMap_cons, List.append_assoc, List.append_assoc] at same
          obtain ⟨rfl, behind⟩ := each item List.mem_cons_self other List.mem_cons_self _ _ same
          obtain ⟨rfl, equal⟩ := induction
            (fun item inside other inside' =>
              each item (List.mem_cons_of_mem _ inside) other (List.mem_cons_of_mem _ inside'))
            (fun other member => apart other (List.mem_cons_of_mem _ member))
            (fun item member => apart' item (List.mem_cons_of_mem _ member)) behind
          exact ⟨rfl, equal⟩

section Escape

theorem escape_char_cancel {left right : Char} {rest rest' : List Char}
    (same : escapeChar left ++ rest = escapeChar right ++ rest') : left = right ∧ rest = rest' := by
  unfold escapeChar at same
  split at same <;> split at same <;> simp at same ⊢ <;> grind

theorem escape_char_filled (char : Char) : escapeChar char ≠ [] := by
  unfold escapeChar
  split <;> simp

theorem escape_injective {left right : String} (same : escape left = escape right) :
    left = right := by
  have chars : left.toList.flatMap escapeChar ++ [] = right.toList.flatMap escapeChar ++ [] := by
    rw [List.append_nil, List.append_nil]
    exact String.ofList_injective same
  have filled : ∀ (char : Char) (rest : List Char), [] ≠ escapeChar char ++ rest := by
    intro char rest empty
    exact escape_char_filled char (List.append_eq_nil_iff.1 empty.symm).1
  obtain ⟨equal, -⟩ := row_cancel (fun _ _ _ _ _ _ => escape_char_cancel)
    (fun char _ => filled char) (fun char _ => filled char) chars
  exact String.toList_injective equal

theorem escape_plain (text : String) : ∀ char ∈ (escape text).toList, char ≠ '<' ∧ char ≠ '"' := by
  intro char member
  rw [escape, String.toList_ofList] at member
  obtain ⟨source, -, member⟩ := List.mem_flatMap.1 member
  have entity : ∀ name ∈ ["&amp;", "&lt;", "&gt;", "&quot;", "&apos;"],
      '<' ∉ name.toList ∧ '"' ∉ name.toList := by decide
  unfold escapeChar at member
  split at member
  case h_6 lessThan _ quote _ =>
    obtain rfl := List.mem_singleton.1 member
    exact ⟨lessThan, quote⟩
  all_goals
    exact ⟨ne_of_mem_of_not_mem member (entity _ (by decide)).1,
      ne_of_mem_of_not_mem member (entity _ (by decide)).2⟩

end Escape

def isTagChar (char : Char) : Bool := char.isLower || decide (char = '-')

def IsTag (tag : String) : Prop := tag.toList ≠ [] ∧ tag.toList.all isTagChar = true

instance (tag : String) : Decidable (IsTag tag) := inferInstanceAs (Decidable (_ ∧ _))

/-- The tags of groups; a node has another one. -/
def groupTags : List String := ["children", "options"]

/-- Elements that are told apart by their text. -/
inductive Legible : Element → Prop
  | node {tag text : String} {attributes : List (String × String)} {inner : List Element} :
      IsTag tag → tag ∉ groupTags → (∀ pair ∈ attributes, IsTag pair.1) →
      (∀ element ∈ inner, Legible element) → Legible (.node tag attributes text inner)
  | group {tag : String} {items : List Element} :
      tag ∈ groupTags → (∀ element ∈ items, Legible element) → Legible (.group tag items)

theorem is_tag_of_group {tag : String} (group : tag ∈ groupTags) : IsTag tag := by
  revert tag
  decide

section Tags

variable {tag tag' : String} {attributes attributes' : List (String × String)}
  {rest rest' : List Char}

theorem tag_cancel (same : tag.toList ++ rest = tag'.toList ++ rest') (named : IsTag tag)
    (named' : IsTag tag') (ends : ∀ char, rest.head? = some char → isTagChar char = false)
    (ends' : ∀ char, rest'.head? = some char → isTagChar char = false) :
    tag = tag' ∧ rest = rest' := by
  obtain ⟨equal, behind⟩ := run_cancel isTagChar same (List.all_eq_true.1 named.2)
    (List.all_eq_true.1 named'.2) ends ends'
  exact ⟨String.toList_injective equal, behind⟩

theorem value_cancel {value value' : String}
    (same : (escape value).toList ++ '"' :: rest = (escape value').toList ++ '"' :: rest') :
    value = value' ∧ rest = rest' := by
  obtain ⟨equal, behind⟩ := run_cancel (fun char => char ≠ '"') same
    (fun char member => by simpa using (escape_plain value char member).2)
    (fun char member => by simpa using (escape_plain value' char member).2)
    (by simp) (by simp)
  exact ⟨escape_injective (String.toList_injective equal), (List.cons.inj behind).2⟩

theorem text_cancel {text text' : String}
    (same : (escape text).toList ++ rest = (escape text').toList ++ rest')
    (opens : rest.head? = some '<') (opens' : rest'.head? = some '<') :
    text = text' ∧ rest = rest' := by
  obtain ⟨equal, behind⟩ := run_cancel (fun char => char ≠ '<') same
    (fun char member => by simpa using (escape_plain text char member).1)
    (fun char member => by simpa using (escape_plain text' char member).1)
    (by simp [opens]) (by simp [opens'])
  exact ⟨escape_injective (String.toList_injective equal), behind⟩

def attributeChars (pair : String × String) : List Char :=
  ' ' :: (pair.1.toList ++ '=' :: '"' :: ((escape pair.2).toList ++ ['"']))

theorem attribute_chars_head (char : Char)
    (first : (attributes.flatMap attributeChars ++ '>' :: rest).head? = some char) :
    isTagChar char = false := by
  cases attributes with
  | nil =>
      obtain rfl := Option.some.inj first
      decide
  | cons pair attributes =>
      obtain rfl := Option.some.inj first
      decide

theorem attributes_cancel (named : ∀ pair ∈ attributes, IsTag pair.1)
    (named' : ∀ pair ∈ attributes', IsTag pair.1)
    (same : attributes.flatMap attributeChars ++ '>' :: rest =
      attributes'.flatMap attributeChars ++ '>' :: rest') :
    attributes = attributes' ∧ rest = rest' := by
  have apart : ∀ (pair : String × String) (rest rest' : List Char),
      '>' :: rest ≠ attributeChars pair ++ rest' := by
    intro pair rest rest' same
    exact absurd (List.cons.inj same).1 (by decide)
  have ends : ∀ (rest : List Char) (char : Char), ('=' :: rest).head? = some char →
      isTagChar char = false := by
    rintro rest char ⟨⟩
    decide
  obtain ⟨equal, behind⟩ := row_cancel
    (fun pair inside pair' inside' rest rest' same => by
      simp only [attributeChars, List.cons_append, List.append_assoc, List.nil_append] at same
      -- Names end in front of the sign, values in front of the quote.
      obtain ⟨names, behind⟩ := tag_cancel (List.cons.inj same).2 (named pair inside)
        (named' pair' inside') (ends _) (ends _)
      obtain ⟨values, behind⟩ := value_cancel (List.cons.inj (List.cons.inj behind).2).2
      exact ⟨Prod.ext names values, behind⟩)
    (fun pair _ => apart pair _) (fun pair _ => apart pair _) same
  exact ⟨equal, (List.cons.inj behind).2⟩

end Tags

section Writing

variable {depth : Nat}

theorem write_node (tag text : String) (attributes : List (String × String))
    (inner : List Element) :
    (write depth (.node tag attributes text inner)).toList = '<' :: (tag.toList ++
      (attributes.flatMap attributeChars ++ '>' :: ((escape text).toList ++
        ((writeInner depth inner).toList ++ '<' :: '/' :: (tag.toList ++ ['>']))))) := by
  have each : ∀ pair : String × String,
      (assignment pair.1 pair.2).toList = attributeChars pair := by
    simp [assignment, attributeChars]
  have assignments :
      (String.join (attributes.map fun pair => assignment pair.1 pair.2)).toList =
        attributes.flatMap attributeChars := by
    rw [String.toList_join, List.flatMap_map]
    simp only [each]
  simp [write, opening, closing, assignments]

theorem write_group (tag : String) (items : List Element) :
    (write depth (.group tag items)).toList = '<' :: (tag.toList ++ '>' :: '\n' ::
      ((writeItems (depth + 1) items).toList ++ (List.replicate (2 * depth) ' ' ++
        '<' :: '/' :: (tag.toList ++ ['>'])))) := by
  simp [write, opening, closing, indent]

theorem write_head (depth : Nat) {element : Element} (legible : element.Legible) : ∃ char more,
    (write depth element).toList = '<' :: char :: more ∧ isTagChar char = true := by
  have filled : ∀ {tag : String}, IsTag tag → ∃ char more, tag.toList = char :: more ∧
      isTagChar char = true := by
    rintro tag ⟨filled, named⟩
    obtain ⟨char, more, split⟩ := List.exists_cons_of_ne_nil filled
    rw [split, List.all_cons, Bool.and_eq_true] at named
    exact ⟨char, more, split, named.1⟩
  cases legible with
  | node named =>
      obtain ⟨char, more, split, letter⟩ := filled named
      exact ⟨char, _, by rw [write_node, split]; rfl, letter⟩
  | group known =>
      obtain ⟨char, more, split, letter⟩ := filled (is_tag_of_group known)
      exact ⟨char, _, by rw [write_group, split]; rfl, letter⟩

/-- The text of the element can be told from any other text that goes on in another way. -/
def Cancels (element : Element) : Prop :=
  ∀ depth other rest rest', Legible other →
    (write depth element).toList ++ rest = (write depth other).toList ++ rest' →
    element = other ∧ rest = rest'

variable {elements others : List Element} {rest rest' : List Char}

theorem write_inner_chars : (writeInner depth elements).toList =
    elements.flatMap fun element => (write depth element).toList := by
  induction elements with
  | nil => rfl
  | cons element elements induction =>
      rw [writeInner, String.toList_append, induction, List.flatMap_cons]

def itemChars (depth : Nat) (element : Element) : List Char :=
  List.replicate (2 * depth) ' ' ++ ((write depth element).toList ++ ['\n'])

theorem write_items_chars : (writeItems depth elements).toList =
    elements.flatMap (itemChars depth) := by
  induction elements with
  | nil => rfl
  | cons element elements induction =>
      simp [writeItems, indent, itemChars, induction]

theorem write_inner_head (legible : ∀ element ∈ elements, Legible element) :
    ((writeInner depth elements).toList ++ '<' :: rest).head? = some '<' := by
  cases elements with
  | nil => rfl
  | cons element elements =>
      obtain ⟨char, more, written, -⟩ := write_head depth (legible element List.mem_cons_self)
      rw [writeInner, String.toList_append, written]
      rfl

theorem inner_cancel (each : ∀ element ∈ elements, Cancels element)
    (legible : ∀ element ∈ elements, Legible element) (legible' : ∀ other ∈ others, Legible other)
    (same : (writeInner depth elements).toList ++ '<' :: '/' :: rest =
      (writeInner depth others).toList ++ '<' :: '/' :: rest') :
    elements = others ∧ rest = rest' := by
  have apart : ∀ (element : Element) (rest rest' : List Char), Legible element →
      '<' :: '/' :: rest ≠ (write depth element).toList ++ rest' := by
    intro element rest rest' legible same
    obtain ⟨char, more, written, letter⟩ := write_head depth legible
    rw [written] at same
    rw [← (List.cons.inj (List.cons.inj same).2).1] at letter
    exact absurd letter (by decide)
  rw [write_inner_chars, write_inner_chars] at same
  obtain ⟨equal, behind⟩ := row_cancel
    (fun element inside other inside' _ _ =>
      each element inside depth other _ _ (legible' other inside'))
    (fun other member _ => apart other _ _ (legible' other member))
    (fun element member _ => apart element _ _ (legible element member)) same
  exact ⟨equal, (List.cons.inj (List.cons.inj behind).2).2⟩

/-- The items of a group stand deeper than its closing tag. -/
theorem items_cancel (each : ∀ element ∈ elements, Cancels element)
    (legible : ∀ element ∈ elements, Legible element) (legible' : ∀ other ∈ others, Legible other)
    (same : (writeItems (depth + 1) elements).toList ++
        (List.replicate (2 * depth) ' ' ++ '<' :: '/' :: rest) =
      (writeItems (depth + 1) others).toList ++
        (List.replicate (2 * depth) ' ' ++ '<' :: '/' :: rest')) :
    elements = others ∧ rest = rest' := by
  have apart : ∀ (element : Element) (rest rest' : List Char), Legible element →
      List.replicate (2 * depth) ' ' ++ '<' :: rest ≠ itemChars (depth + 1) element ++ rest' := by
    intro element rest rest' legible same
    obtain ⟨char, more, written, -⟩ := write_head (depth + 1) legible
    simp only [itemChars, written, List.append_assoc, List.cons_append] at same
    -- The blanks in front of a tag can be counted, and an item has two more.
    obtain ⟨level, -⟩ := run_cancel (fun char => char = ' ') same (by simp) (by simp)
      (by simp) (by simp)
    have depths := congrArg List.length level
    simp only [List.length_replicate] at depths
    omega
  rw [write_items_chars, write_items_chars] at same
  obtain ⟨equal, behind⟩ := row_cancel
    (fun element inside other inside' _ _ same => by
      simp only [itemChars, List.append_assoc] at same
      obtain ⟨rfl, behind⟩ := each element inside _ other _ _ (legible' other inside')
        (List.append_cancel_left same)
      exact ⟨rfl, List.append_cancel_left behind⟩)
    (fun other member _ => apart other _ _ (legible' other member))
    (fun element member _ => apart element _ _ (legible element member)) same
  exact ⟨equal, (List.cons.inj (List.cons.inj (List.append_cancel_left behind)).2).2⟩

theorem Legible.cancels {element : Element} (legible : element.Legible) : element.Cancels := by
  have closes : ∀ {rest : List Char} (char : Char), ('>' :: rest).head? = some char →
      isTagChar char = false := by
    rintro rest char ⟨⟩
    decide
  induction legible with
  | node named apart attributesNamed innerLegible induction =>
      intro depth other rest rest' legible' same
      cases legible' with
      | node named' _ attributesNamed' innerLegible' =>
          simp only [write_node, List.cons_append, List.append_assoc] at same
          have afterMark := (List.cons.inj same).2
          obtain ⟨rfl, afterTag⟩ := tag_cancel afterMark named named'
            (fun char => attribute_chars_head char) (fun char => attribute_chars_head char)
          obtain ⟨rfl, afterAttributes⟩ :=
            attributes_cancel attributesNamed attributesNamed' afterTag
          obtain ⟨rfl, afterText⟩ := text_cancel afterAttributes (write_inner_head innerLegible)
            (write_inner_head innerLegible')
          obtain ⟨rfl, afterInner⟩ := inner_cancel induction innerLegible innerLegible' afterText
          exact ⟨rfl, (List.cons.inj (List.append_cancel_left afterInner)).2⟩
      | group known =>
          simp only [write_node, write_group, List.cons_append, List.append_assoc] at same
          have afterMark := (List.cons.inj same).2
          obtain ⟨rfl, -⟩ := tag_cancel afterMark named (is_tag_of_group known)
            (fun char => attribute_chars_head char) closes
          exact absurd known apart
  | group known itemsLegible induction =>
      intro depth other rest rest' legible' same
      cases legible' with
      | node named' apart =>
          simp only [write_node, write_group, List.cons_append, List.append_assoc] at same
          have afterMark := (List.cons.inj same).2
          obtain ⟨rfl, -⟩ := tag_cancel afterMark (is_tag_of_group known) named' closes
            (fun char => attribute_chars_head char)
          exact absurd known apart
      | group known' itemsLegible' =>
          simp only [write_group, List.cons_append, List.append_assoc] at same
          have afterMark := (List.cons.inj same).2
          obtain ⟨rfl, afterTag⟩ := tag_cancel afterMark (is_tag_of_group known)
            (is_tag_of_group known') closes closes
          have inside := (List.cons.inj (List.cons.inj afterTag).2).2
          obtain ⟨rfl, afterItems⟩ := items_cancel induction itemsLegible itemsLegible' inside
          exact ⟨rfl, (List.cons.inj (List.append_cancel_left afterItems)).2⟩

/-- Elements with the same text are the same. -/
theorem write_injective {element other : Element} (legible : element.Legible)
    (legible' : other.Legible) (same : write depth element = write depth other) :
    element = other := by
  refine (legible.cancels depth other [] [] legible' ?_).1
  rw [same]

end Writing

end KernelMenu.Element

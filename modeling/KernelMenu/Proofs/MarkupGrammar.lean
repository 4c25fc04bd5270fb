import KernelMenu.Proofs.MarkupReading

/-!
The grammar of markup: characters and elements side by side, every start tag closed by its own end
tag, values between quotes, and five characters that only stand as entities. It is stated without
the writer; a text has one reading at most, and the text of an element is read as the element.
-/

namespace KernelMenu

namespace Markup

def entities : List (Char × String) :=
  [('&', "&amp;"), ('<', "&lt;"), ('>', "&gt;"), ('"', "&quot;"), ('\'', "&apos;")]

/-- A character as it is written. -/
inductive WrittenChar : List Char → Char → Prop
  | plain {char : Char} : char ∉ entities.map Prod.fst → WrittenChar [char] char
  | entity {char : Char} {name : String} : (char, name) ∈ entities → WrittenChar name.toList char

inductive WrittenText : List Char → List Char → Prop
  | nil : WrittenText [] []
  | cons {form written : List Char} {char : Char} {text : List Char} :
      WrittenChar form char → WrittenText written text →
        WrittenText (form ++ written) (char :: text)

inductive WrittenAttributes : List Char → List (String × String) → Prop
  | nil : WrittenAttributes [] []
  | cons {name value : String} {text written : List Char} {others : List (String × String)} :
      Element.IsTag name → WrittenText text value.toList → WrittenAttributes written others →
      WrittenAttributes (' ' :: (name.toList ++ '=' :: '"' :: (text ++ '"' :: written)))
        ((name, value) :: others)

inductive Content where
  | character (char : Char)
  | element (tag : String) (attributes : List (String × String)) (inner : List Content)

namespace Content

def leading : List Content → List Char
  | .character char :: rest => char :: leading rest
  | .element _ _ _ :: _ | [] => []

mutual

/-- The values of attributes and the text in front of the elements inside, in the order in which
they are written. What stands in a group between its elements is layout. -/
def strings : Content → List String
  | .character _ => []
  | .element tag attributes inner =>
      attributes.map Prod.snd ++
        (if tag ∈ Element.groupTags then [] else [String.ofList (leading inner)]) ++
          stringsInner inner

def stringsInner : List Content → List String
  | [] => []
  | content :: contents => strings content ++ stringsInner contents

end

theorem strings_append (front back : List Content) :
    stringsInner (front ++ back) = stringsInner front ++ stringsInner back := by
  induction front with
  | nil => rfl
  | cons content front induction =>
      rw [List.cons_append, stringsInner, stringsInner, induction, List.append_assoc]

theorem strings_chars (text : List Char) : stringsInner (text.map .character) = [] := by
  induction text with
  | nil => rfl
  | cons char text induction =>
      rw [List.map_cons, stringsInner, strings, induction, List.nil_append]

theorem leading_chars (text : List Char) {rest : List Content} (none : leading rest = []) :
    leading (text.map .character ++ rest) = text := by
  induction text with
  | nil => exact none
  | cons char text induction => exact congrArg (char :: ·) induction

end Content

/-- Markup as it is written. -/
inductive Written : List Char → List Content → Prop
  | nil : Written [] []
  | char {form rest : List Char} {char : Char} {others : List Content} :
      WrittenChar form char → Written rest others →
        Written (form ++ rest) (.character char :: others)
  | element {tag : String} {attributes : List (String × String)} {inner others : List Content}
      {written inside rest : List Char} :
      Element.IsTag tag → WrittenAttributes written attributes → Written inside inner →
      Written rest others →
      Written ('<' :: (tag.toList ++ (written ++ '>' :: (inside ++
        '<' :: '/' :: (tag.toList ++ '>' :: rest))))) (.element tag attributes inner :: others)

section Forms

open Element

theorem entity_eq_escape : ∀ pair ∈ entities, pair.2.toList = escapeChar pair.1 := by decide

theorem escape_char_plain {char : Char} (other : char ∉ entities.map Prod.fst) :
    escapeChar char = [char] := by
  unfold escapeChar
  split
  case h_6 => rfl
  all_goals exact absurd (by decide) other

theorem written_char_iff {form : List Char} {char : Char} :
    WrittenChar form char ↔ form = escapeChar char := by
  constructor
  · rintro (other | known)
    · exact (escape_char_plain other).symm
    · exact entity_eq_escape _ known
  · rintro rfl
    by_cases marked : char ∈ entities.map Prod.fst
    · obtain ⟨⟨_, name⟩, known, rfl⟩ := List.mem_map.1 marked
      rw [← entity_eq_escape _ known]
      exact .entity known
    · rw [escape_char_plain marked]
      exact .plain marked

theorem written_text_iff {written text : List Char} :
    WrittenText written text ↔ written = text.flatMap escapeChar := by
  constructor
  · intro holds
    induction holds with
    | nil => rfl
    | cons form _ induction => rw [written_char_iff.1 form, induction, List.flatMap_cons]
  · rintro rfl
    induction text with
    | nil => exact .nil
    | cons char text induction => exact .cons (written_char_iff.2 rfl) induction

theorem written_attributes_iff {written : List Char} {attributes : List (String × String)} :
    WrittenAttributes written attributes ↔
      (∀ pair ∈ attributes, IsTag pair.1) ∧ written = attributes.flatMap attributeChars := by
  have value_chars : ∀ value : String, value.toList.flatMap escapeChar = (escape value).toList :=
    fun value => (String.toList_ofList).symm
  constructor
  · intro holds
    induction holds with
    | nil => exact ⟨nofun, rfl⟩
    | cons named text _ induction =>
        refine ⟨List.forall_mem_cons.2 ⟨named, induction.1⟩, ?_⟩
        rw [written_text_iff.1 text, induction.2, value_chars]
        simp [attributeChars]
  · rintro ⟨named, rfl⟩
    induction attributes with
    | nil => exact .nil
    | cons pair attributes induction =>
        obtain ⟨own, others⟩ := List.forall_mem_cons.1 named
        have value := written_text_iff.2 (value_chars pair.2).symm
        have whole := WrittenAttributes.cons own value (induction others)
        simpa [attributeChars] using whole

/-- No character is written so that it begins like a tag. -/
theorem WrittenChar.head_ne {form : List Char} {char : Char} (written : WrittenChar form char)
    (rest more : List Char) : form ++ rest ≠ '<' :: more := by
  cases written with
  | plain other =>
      intro same
      obtain rfl : char = '<' := (List.cons.inj same).1
      exact other (by decide)
  | @entity char name known =>
      have heads : ∀ pair ∈ entities, pair.2.toList.head? = some '&' := by decide
      intro same
      obtain ⟨tail, split⟩ := List.head?_eq_some_iff.1 (heads _ known)
      rw [split] at same
      exact absurd (List.cons.inj same).1 (by decide)

theorem WrittenChar.filled {form : List Char} {char : Char} (written : WrittenChar form char)
    (rest : List Char) : form ++ rest ≠ [] := by
  intro none
  rw [written_char_iff.1 written] at none
  exact escape_char_filled char (List.append_eq_nil_iff.1 none).1

end Forms

def Stops (rest : List Char) : Prop := rest = [] ∨ ∃ more, rest = '<' :: '/' :: more

namespace Written

open Element

variable {written written' rest rest' : List Char} {contents contents' : List Content}

theorem not_element_of_stops {tag : String} {more : List Char} (named : IsTag tag)
    (stops : Stops rest) : rest ≠ '<' :: (tag.toList ++ more) := by
  obtain ⟨char, tail, split⟩ := List.exists_cons_of_ne_nil named.1
  rintro rfl
  rcases stops with none | ⟨behind, same⟩
  · cases none
  · rw [split] at same
    obtain rfl : char = '/' := (List.cons.inj (List.cons.inj same).2).1
    have letters := named.2
    rw [split] at letters
    exact absurd (List.all_cons.symm.trans letters) (by simp [isTagChar])

theorem not_char_of_stops {form more : List Char} {char : Char} (written : WrittenChar form char)
    (stops : Stops rest) : rest ≠ form ++ more := by
  rintro rfl
  rcases stops with none | ⟨behind, same⟩
  · exact written.filled more none
  · exact written.head_ne more _ same

/-- In front of a stop the content of markup can be told. -/
theorem cancel (holds : Written written contents) (holds' : Written written' contents')
    (same : written ++ rest = written' ++ rest') (stops : Stops rest) (stops' : Stops rest') :
    contents = contents' ∧ rest = rest' := by
  induction holds generalizing written' contents' rest rest' with
  | nil =>
      cases holds' with
      | nil => exact ⟨rfl, same⟩
      | char form _ =>
          rw [List.nil_append, List.append_assoc] at same
          exact absurd same (not_char_of_stops form stops)
      | element named =>
          simp only [List.nil_append, List.cons_append, List.append_assoc] at same
          exact absurd same (not_element_of_stops named stops)
  | char form _ induction =>
      rw [List.append_assoc] at same
      cases holds' with
      | nil => exact absurd same.symm (not_char_of_stops form stops')
      | char form' others =>
          rw [List.append_assoc, written_char_iff.1 form, written_char_iff.1 form'] at same
          obtain ⟨rfl, behind⟩ := escape_char_cancel same
          obtain ⟨rfl, equal⟩ := induction others behind stops stops'
          exact ⟨rfl, equal⟩
      | element => exact absurd same (form.head_ne _ _)
  | element named attributes _ _ inside behind =>
      cases holds' with
      | nil =>
          simp only [List.nil_append, List.cons_append, List.append_assoc] at same
          exact absurd same.symm (not_element_of_stops named stops')
      | char form' =>
          rw [List.append_assoc] at same
          exact absurd same.symm (form'.head_ne _ _)
      | element named' attributes' inner' others' =>
          simp only [List.cons_append, List.append_assoc] at same
          obtain ⟨names, rfl⟩ := written_attributes_iff.1 attributes
          obtain ⟨names', rfl⟩ := written_attributes_iff.1 attributes'
          obtain ⟨rfl, afterTag⟩ := tag_cancel (List.cons.inj same).2 named named'
            attribute_chars_head attribute_chars_head
          obtain ⟨rfl, afterStart⟩ := attributes_cancel names names' afterTag
          obtain ⟨rfl, afterInner⟩ := inside inner' afterStart (.inr ⟨_, rfl⟩) (.inr ⟨_, rfl⟩)
          have ends := List.append_cancel_left (List.cons.inj (List.cons.inj afterInner).2).2
          obtain ⟨rfl, equal⟩ := behind others' (List.cons.inj ends).2 stops stops'
          exact ⟨rfl, equal⟩

theorem unique (holds : Written written contents) (holds' : Written written contents') :
    contents = contents' :=
  (holds.cancel holds' rfl (.inl rfl) (.inl rfl)).1

theorem append (holds : Written written contents) (holds' : Written written' contents') :
    Written (written ++ written') (contents ++ contents') := by
  induction holds with
  | nil => exact holds'
  | char form _ induction =>
      rw [List.append_assoc]
      exact .char form induction
  | element named attributes inner _ _ induction =>
      have whole := Written.element named attributes inner induction
      simpa using whole

theorem of_text (text : List Char) :
    Written (text.flatMap escapeChar) (text.map .character) := by
  induction text with
  | nil => exact .nil
  | cons char text induction => exact .char (written_char_iff.2 rfl) induction

end Written

section Replacing

open Element

def replaced (text : List Char) (pair : Char × String) : List Char :=
  text.flatMap fun char => if char = pair.1 then pair.2.toList else [char]

theorem replaced_append (pairs : List (Char × String)) (front back : List Char) :
    pairs.foldl replaced (front ++ back) =
      pairs.foldl replaced front ++ pairs.foldl replaced back := by
  induction pairs generalizing front back with
  | nil => rfl
  | cons pair pairs induction =>
      rw [List.foldl_cons, replaced, List.flatMap_append]
      exact induction _ _

theorem replaced_other {char : Char} {pairs : List (Char × String)}
    (other : char ∉ pairs.map Prod.fst) : pairs.foldl replaced [char] = [char] := by
  induction pairs with
  | nil => rfl
  | cons pair pairs induction =>
      obtain ⟨different, others⟩ := List.ne_and_not_mem_of_not_mem_cons other
      have own : replaced [char] pair = [char] := by
        rw [replaced, List.flatMap_singleton, if_neg different]
      rw [List.foldl_cons, own]
      exact induction others

/-- The ampersand comes first, so the replacements in turn never meet an entity of their own. -/
theorem replaced_in_turn (text : List Char) :
    entities.foldl replaced text = text.flatMap escapeChar := by
  induction text with
  | nil => rfl
  | cons char text induction =>
      have own : entities.foldl replaced [char] = escapeChar char := by
        by_cases marked : char ∈ entities.map Prod.fst
        · obtain rfl | rfl | rfl | rfl | rfl :
              char = '&' ∨ char = '<' ∨ char = '>' ∨ char = '"' ∨ char = '\'' := by
            simpa [entities] using marked
          all_goals rfl
        · rw [replaced_other marked, escape_char_plain marked]
      rw [List.flatMap_cons, ← induction, ← own]
      exact replaced_append entities [char] text

end Replacing

end Markup

end KernelMenu

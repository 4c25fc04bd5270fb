import KernelMenu.Grammar.Rule

/-!
Languages of token lists, each word with the value that it stands for, and the ways to build them
that answer to the ways to build rules. A list is viable for a language if it begins one of its
words; what may come next after a viable list is what an error can ask for.
-/

namespace KernelMenu.Grammar

abbrev Language (Value : Type) := List Token → Value → Prop

namespace Language

variable {Value Value' : Type}

/-- Some word of the language begins with the tokens. -/
def Viable (language : Language Value) (word : List Token) : Prop :=
  ∃ rest value, language (word ++ rest) value

def Inhabited (language : Language Value) : Prop := ∃ word value, language word value

def one (meaning : Token → Option Value) : Language Value := fun word value =>
  ∃ token, word = [token] ∧ meaning token = some value

def map (change : Value → Value') (language : Language Value) : Language Value' :=
  fun word value' => ∃ value, language word value ∧ change value = value'

def both (first : Language Value) (second : Language Value') : Language (Value × Value') :=
  fun word pair => ∃ front back, word = front ++ back ∧ first front pair.1 ∧ second back pair.2

def before (first : Language Value) (second : Language Value') : Language Value' :=
  (first.both second).map Prod.snd

def closedBy (first : Language Value) (second : Language Value') : Language Value :=
  (first.both second).map Prod.fst

def token (wanted : Token) : Language Token :=
  one fun token => if token = wanted then some token else none

def enclosed (opening closing : Mark) (language : Language Value) : Language Value :=
  ((token (.mark opening)).before language).closedBy (token (.mark closing))

def either (first second : Language Value) : Language Value := fun word value =>
  first word value ∨ second word value

end Language

inductive Star {Value : Type} (item : Language Value) : Language (List Value)
  | nil : Star item [] []
  | cons {word words : List Token} {value : Value} {values : List Value} :
      item word value → Star item words values → Star item (word ++ words) (value :: values)

inductive Maybe {Value : Type} (item : Language Value) : Language (Option Value)
  | none : Maybe item [] none
  | some {word : List Token} {value : Value} : item word value → Maybe item word (some value)

namespace Language

variable {Value Value' : Type} {language : Language Value} {word front back : List Token}

theorem Viable.of_append (viable : language.Viable (front ++ back)) : language.Viable front := by
  obtain ⟨rest, value, holds⟩ := viable
  exact ⟨back ++ rest, value, by rwa [← List.append_assoc]⟩

theorem viable_of_word {value : Value} (holds : language word value) : language.Viable word :=
  ⟨[], value, by rwa [List.append_nil]⟩

theorem Viable.inhabited (viable : language.Viable word) : language.Inhabited := by
  obtain ⟨rest, value, holds⟩ := viable
  exact ⟨word ++ rest, value, holds⟩

theorem viable_map_iff {change : Value → Value'} :
    (language.map change).Viable word ↔ language.Viable word := by
  constructor
  · rintro ⟨rest, -, value, holds, -⟩
    exact ⟨rest, value, holds⟩
  · rintro ⟨rest, value, holds⟩
    exact ⟨rest, change value, value, holds, rfl⟩

theorem viable_either_iff {first second : Language Value} :
    (first.either second).Viable word ↔ first.Viable word ∨ second.Viable word := by
  constructor
  · rintro ⟨rest, value, holds | holds⟩
    · exact .inl ⟨rest, value, holds⟩
    · exact .inr ⟨rest, value, holds⟩
  · rintro (⟨rest, value, holds⟩ | ⟨rest, value, holds⟩)
    · exact ⟨rest, value, .inl holds⟩
    · exact ⟨rest, value, .inr holds⟩

theorem either_comm (first second : Language Value) :
    first.either second = second.either first := by
  funext word value
  exact propext Or.comm

theorem viable_both_of_first {first : Language Value} {second : Language Value'}
    (viable : first.Viable word) (inhabited : second.Inhabited) :
    (first.both second).Viable word := by
  obtain ⟨rest, value, holds⟩ := viable
  obtain ⟨word', value', holds'⟩ := inhabited
  exact ⟨rest ++ word', (value, value'), word ++ rest, word', by simp, holds, holds'⟩

theorem viable_both_of_second {first : Language Value} {second : Language Value'} {value : Value}
    (holds : first front value) (viable : second.Viable back) :
    (first.both second).Viable (front ++ back) := by
  obtain ⟨rest, value', holds'⟩ := viable
  exact ⟨rest, (value, value'), front, back ++ rest, by simp, holds, holds'⟩

/-- A list that begins a sequence ends inside its first part, or some tokens into the second. -/
theorem Viable.of_both {first : Language Value} {second : Language Value'}
    (viable : (first.both second).Viable word) :
    first.Viable word ∨ ∃ front back value, word = front ++ back ∧ back ≠ [] ∧
      first front value ∧ second.Viable back := by
  obtain ⟨rest, pair, front, back, split, left, right⟩ := viable
  rcases List.append_eq_append_iff.1 split with ⟨spill, rfl, rfl⟩ | ⟨spill, rfl, rfl⟩
  · exact .inl ⟨spill, pair.1, left⟩
  · rcases spill with _ | ⟨token, spill⟩
    · exact .inl ⟨[], pair.1, by simpa using left⟩
    · exact .inr
        ⟨front, token :: spill, pair.1, rfl, List.cons_ne_nil _ _, left, rest, pair.2, right⟩

theorem Viable.of_both_snoc {first : Language Value} {second : Language Value'} {token : Token}
    (viable : (first.both second).Viable (word ++ [token])) :
    first.Viable (word ++ [token]) ∨ ∃ front back value, word = front ++ back ∧
      first front value ∧ second.Viable (back ++ [token]) := by
  rcases viable.of_both with inFirst | ⟨front, back, value, same, filled, holds, inSecond⟩
  · exact .inl inFirst
  · obtain ⟨back, last, rfl⟩ := (List.eq_nil_or_concat back).resolve_left filled
    rw [List.concat_eq_append] at same inSecond
    rw [← List.append_assoc] at same
    obtain ⟨rfl, lastSame⟩ := List.append_inj' same rfl
    obtain rfl : token = last := by simpa using lastSame
    exact .inr ⟨front, back, value, rfl, holds, inSecond⟩

theorem viable_maybe_iff : Language.Viable (Maybe language) word ↔
    word = [] ∨ language.Viable word := by
  constructor
  · rintro ⟨rest, value, holds⟩
    generalize whole : word ++ rest = total at holds
    cases holds with
    | none => exact .inl (List.append_eq_nil_iff.1 whole).1
    | some holds => exact .inr ⟨rest, _, by rwa [whole]⟩
  · rintro (rfl | ⟨rest, value, holds⟩)
    · exact ⟨[], none, .none⟩
    · exact ⟨rest, some value, .some holds⟩

theorem star_one {value : Value} (holds : language word value) : Star language word [value] := by
  simpa using Star.cons holds .nil

theorem star_append {words words' : List Token} {values values' : List Value}
    (first : Star language words values) (second : Star language words' values') :
    Star language (words ++ words') (values ++ values') := by
  induction first with
  | nil => exact second
  | cons holds _ induction => simpa using Star.cons holds induction

theorem star_of_forall {Source : Type} {print : Source → List Token} {meaning : Source → Value}
    {sources : List Source} (holds : ∀ source ∈ sources, language (print source) (meaning source)) :
    Star language (sources.flatMap print) (sources.map meaning) := by
  induction sources with
  | nil => exact .nil
  | cons source sources induction =>
      have rest := induction fun other member => holds other (List.mem_cons_of_mem _ member)
      exact .cons (holds source List.mem_cons_self) rest

theorem star_nil_or_cons {values : List Value} (holds : Star language word values) :
    word = [] ∧ values = [] ∨ ∃ first rest value others, word = first ++ rest ∧
      values = value :: others ∧ language first value ∧ Star language rest others := by
  cases holds with
  | nil => exact .inl ⟨rfl, rfl⟩
  | cons first rest => exact .inr ⟨_, _, _, _, rfl, rfl, first, rest⟩

theorem token_iff {wanted value : Token} :
    token wanted word value ↔ word = [wanted] ∧ value = wanted := by
  constructor
  · rintro ⟨found, rfl, meant⟩
    dsimp only at meant
    split at meant
    case isTrue same =>
      subst same
      exact ⟨rfl, (Option.some.inj meant).symm⟩
    case isFalse => exact nomatch meant
  · rintro ⟨rfl, rfl⟩
    exact ⟨value, rfl, if_pos rfl⟩

theorem before_token_iff {wanted : Token} {value : Value} :
    (token wanted).before language word value ↔
      ∃ rest, word = wanted :: rest ∧ language rest value := by
  constructor
  · rintro ⟨⟨found, value⟩, ⟨front, back, rfl, first, second⟩, rfl⟩
    obtain ⟨rfl, -⟩ := token_iff.1 first
    exact ⟨back, rfl, second⟩
  · rintro ⟨rest, rfl, holds⟩
    exact ⟨(wanted, value), ⟨[wanted], rest, rfl, token_iff.2 ⟨rfl, rfl⟩, holds⟩, rfl⟩

theorem enclosed_iff {opening closing : Mark} {value : Value} :
    language.enclosed opening closing word value ↔
      ∃ inner, word = .mark opening :: inner ++ [.mark closing] ∧ language inner value := by
  constructor
  · rintro ⟨⟨value, found⟩, ⟨front, back, rfl, first, second⟩, rfl⟩
    obtain ⟨rfl, -⟩ := token_iff.1 second
    obtain ⟨inner, rfl, holds⟩ := before_token_iff.1 first
    exact ⟨inner, rfl, holds⟩
  · rintro ⟨inner, rfl, holds⟩
    exact ⟨(value, .mark closing), ⟨.mark opening :: inner, [.mark closing], rfl,
      before_token_iff.2 ⟨inner, rfl, holds⟩, token_iff.2 ⟨rfl, rfl⟩⟩, rfl⟩

/-- Two languages with the same words and values are one. -/
theorem same {first second : Language Value}
    (iff : ∀ word value, first word value ↔ second word value) : first = second := by
  funext word value
  exact propext (iff word value)

end Language

end KernelMenu.Grammar

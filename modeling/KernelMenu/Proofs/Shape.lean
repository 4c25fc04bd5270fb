import KernelMenu.Proofs.Seam

/-!
What can be told of a language without its words: the kinds of tokens that begin them, the kinds
that may come after a whole word, whether nothing is a word, and whether a guard can occur. Most
seams of the grammar are sound by a comparison of these lists.
-/

namespace KernelMenu.Grammar

variable {Value Value' : Type}

/-- Bounds from above for what a language allows. -/
structure Shape where
  firsts : List Kind
  nexts : List Kind
  empty : Bool
  guards : Bool

namespace Shape

def one (kind : Kind) : Shape := ⟨[kind], [], false, kind == .keyword .guard⟩

def both (left right : Shape) : Shape where
  firsts := left.firsts ++ if left.empty then right.firsts else []
  nexts := right.nexts ++ if right.empty then left.nexts else []
  empty := left.empty && right.empty
  guards := left.guards || right.guards

def either (left right : Shape) : Shape where
  firsts := left.firsts ++ right.firsts
  nexts := left.nexts ++ right.nexts
  empty := left.empty || right.empty
  guards := left.guards || right.guards

def repeated (shape : Shape) : Shape :=
  ⟨shape.firsts, shape.nexts ++ shape.firsts, true, shape.guards⟩

/-- Nothing that may come after a word of the left shape begins a word of the right one. -/
def Apart (left right : Shape) : Prop := ∀ kind ∈ left.nexts, kind ∉ right.firsts

instance (left right : Shape) : Decidable (left.Apart right) :=
  inferInstanceAs (Decidable (∀ kind ∈ left.nexts, kind ∉ right.firsts))

/-- Words of the left shape begin with other tokens than those of the right one. -/
def Differs (left right : Shape) : Prop := ∀ kind ∈ left.firsts, kind ∉ right.firsts

instance (left right : Shape) : Decidable (left.Differs right) :=
  inferInstanceAs (Decidable (∀ kind ∈ left.firsts, kind ∉ right.firsts))

theorem apart_closing {shape : Shape} {opening closing : Mark}
    (apart : .mark closing ∉ shape.nexts) :
    ((one (.mark opening)).both shape).Apart (one (.mark closing)) := by
  intro kind member same
  rw [List.mem_singleton.1 same] at member
  rcases List.mem_append.1 member with member | member
  · exact apart member
  · split at member <;> exact absurd member List.not_mem_nil

end Shape

structure Shaped (language : Language Value) (shape : Shape) : Prop where
  inhabited : language.Inhabited
  first : ∀ token, language.Viable [token] → token.kind ∈ shape.firsts
  next : ∀ word value token, language word value → language.Viable (word ++ [token]) →
    token.kind ∈ shape.nexts
  filled : shape.empty = false → ∀ value, ¬ language [] value
  guardless : shape.guards = false → ∀ word value, language word value → .keyword .guard ∉ word

theorem BehindGuard.guard_mem {word : List Token} (behind : BehindGuard word) :
    .keyword .guard ∈ word := by
  obtain ⟨before, name, payload, guard, condition, -, holds, rfl⟩ := behind
  cases holds with
  | intro bracketed => simp

namespace Shaped

variable {language : Language Value} {shape : Shape}

theorem empty_of_word {value : Value} (shaped : Shaped language shape)
    (holds : language [] value) : shape.empty = true := by
  cases nothing : shape.empty with
  | false => exact absurd holds (shaped.filled nothing value)
  | true => rfl

theorem guardless_of_viable (shaped : Shaped language shape) (none : shape.guards = false)
    {word : List Token} (viable : language.Viable word) : .keyword .guard ∉ word := by
  obtain ⟨rest, value, holds⟩ := viable
  exact fun member => shaped.guardless none _ value holds (List.mem_append_left rest member)

theorem not_behind_guard (shaped : Shaped language shape) (none : shape.guards = false)
    {word : List Token} (viable : language.Viable word) : ¬ BehindGuard word :=
  fun behind => shaped.guardless_of_viable none viable behind.guard_mem

theorem follows {second : Language Value'} {shape' : Shape} (shaped : Shaped language shape)
    (shaped' : Shaped second shape') (apart : shape.Apart shape')
    (none : shape.guards = false) (none' : shape'.guards = false) : Follows language second where
  apart := by
    intro word value token token' holds viable viable' same
    exact apart _ (shaped.next word value token holds viable) (same ▸ shaped'.first token' viable')
  clear := by
    intro word value spill holds viable _ behind
    rcases List.mem_append.1 behind.guard_mem with inWord | inOver
    · exact absurd inWord (shaped.guardless none word value holds)
    · exact absurd inOver (shaped'.guardless_of_viable none' viable)
  brace := by
    intro word value holds behind
    exact absurd behind (shaped.not_behind_guard none (Language.viable_of_word holds))

theorem map {change : Value → Value'} (shaped : Shaped language shape) :
    Shaped (language.map change) shape where
  inhabited := by
    obtain ⟨word, value, holds⟩ := shaped.inhabited
    exact ⟨word, change value, value, holds, rfl⟩
  first token viable := shaped.first token (Language.viable_map_iff.1 viable)
  next := by
    rintro word - token ⟨value, holds, rfl⟩ viable
    exact shaped.next word value token holds (Language.viable_map_iff.1 viable)
  filled := by
    rintro none - ⟨value, holds, rfl⟩
    exact shaped.filled none value holds
  guardless := by
    rintro none word - ⟨value, holds, rfl⟩
    exact shaped.guardless none word value holds

end Shaped

theorem Follows.next_of_both {first : Language Value} {second : Language Value'}
    (follows : Follows first second) {front back : List Token} {value : Value} {value' : Value'}
    {token : Token} (holds : first front value) (holds' : second back value')
    (viable : (first.both second).Viable (front ++ back ++ [token])) :
    second.Viable (back ++ [token]) ∨ back = [] ∧ first.Viable (front ++ [token]) := by
  rcases viable.of_both with inFirst | ⟨left, right, value'', same, filled, left', right'⟩
  · rcases back with _ | ⟨item, back⟩
    · exact .inr ⟨rfl, by simpa using inFirst⟩
    · rw [List.append_assoc] at inFirst
      exact absurd (Language.viable_of_word holds') (follows.not_viable holds inFirst)
  · rw [List.append_assoc] at same
    rcases append_compare same.symm with ⟨item, spill, rfl, same'⟩ | ⟨spill, rfl, same'⟩
    · rw [same', List.cons_append] at right'
      exact absurd right' (follows.not_viable left' (Language.viable_of_word holds))
    · rcases spill with _ | ⟨item, spill⟩
      · rw [same']
        exact .inl (by simpa using right')
      · rcases back with _ | ⟨other, back⟩
        · obtain ⟨right, last, rfl⟩ := List.eq_nil_or_concat right |>.resolve_left filled
          have lengths := congrArg List.length same'
          simp at lengths
        · obtain rfl : other = item := (List.cons.inj same').1
          exact absurd (Language.viable_of_word holds')
            (follows.not_viable holds (Language.viable_of_word left'))

namespace Shaped

theorem both {first : Language Value} {second : Language Value'} {shape shape' : Shape}
    (shaped : Shaped first shape) (shaped' : Shaped second shape')
    (follows : Follows first second) : Shaped (first.both second) (shape.both shape') where
  inhabited := by
    obtain ⟨front, value, holds⟩ := shaped.inhabited
    obtain ⟨back, value', holds'⟩ := shaped'.inhabited
    exact ⟨front ++ back, (value, value'), front, back, rfl, holds, holds'⟩
  first := by
    intro token viable
    rcases viable.of_both with inFirst | ⟨front, back, value, same, filled, holds, inSecond⟩
    · exact List.mem_append_left _ (shaped.first token inFirst)
    · rcases front with _ | ⟨other, front⟩
      · have nothing := shaped.empty_of_word holds
        rw [← (show [token] = back by simpa using same)] at inSecond
        simp [Shape.both, nothing, shaped'.first token inSecond]
      · have none := (List.append_eq_nil_iff.1 (List.cons.inj same).2.symm).2
        exact absurd none filled
  next := by
    rintro word ⟨value, value'⟩ token ⟨front, back, rfl, holds, holds'⟩ viable
    rcases follows.next_of_both holds holds' viable with inSecond | ⟨rfl, inFirst⟩
    · exact List.mem_append_left _ (shaped'.next back value' token holds' inSecond)
    · have nothing := shaped'.empty_of_word holds'
      simp [Shape.both, nothing, shaped.next front value token holds inFirst]
  filled := by
    rintro none ⟨value, value'⟩ ⟨front, back, same, holds, holds'⟩
    obtain ⟨rfl, rfl⟩ := List.append_eq_nil_iff.1 same.symm
    rcases Bool.and_eq_false_iff.1 none with none | none
    · exact shaped.filled none value holds
    · exact shaped'.filled none value' holds'
  guardless := by
    rintro none - ⟨value, value'⟩ ⟨front, back, rfl, holds, holds'⟩ member
    obtain ⟨none, none'⟩ := Bool.or_eq_false_iff.1 none
    rcases List.mem_append.1 member with member | member
    · exact shaped.guardless none front value holds member
    · exact shaped'.guardless none' back value' holds' member

theorem one {meaning : Token → Option Value} {kind : Kind} {token : Token} {value : Value}
    (found : meaning token = some value)
    (kinds : ∀ token value, meaning token = some value → token.kind = kind) :
    Shaped (Language.one meaning) (.one kind) where
  inhabited := ⟨[token], value, token, rfl, found⟩
  first := by
    rintro token ⟨rest, value, other, same, found⟩
    obtain rfl : token = other := (List.cons.inj same).1
    exact List.mem_singleton.2 (kinds token value found)
  next := by
    rintro - value token ⟨other, rfl, -⟩ ⟨rest, value', another, same, -⟩
    have lengths := congrArg List.length same
    simp at lengths
  filled := by
    rintro - value ⟨other, same, -⟩
    simp at same
  guardless := by
    rintro none - value ⟨other, rfl, found⟩ member
    obtain rfl := List.mem_singleton.1 member
    have different : kind ≠ .keyword .guard := by simpa [Shape.one] using none
    exact different (kinds _ value found).symm

theorem first_of_cons {language : Language Value} {shape : Shape} {token : Token}
    {rest : List Token} (shaped : Shaped language shape)
    (viable : language.Viable (token :: rest)) : token.kind ∈ shape.firsts := by
  have parts : language.Viable ([token] ++ rest) := viable
  exact shaped.first token parts.of_append

theorem either {first second : Language Value} {shape shape' : Shape}
    (shaped : Shaped first shape) (shaped' : Shaped second shape')
    (differs : shape.Differs shape') (filled : shape.empty = false)
    (filled' : shape'.empty = false) : Shaped (first.either second) (shape.either shape') where
  inhabited := by
    obtain ⟨word, value, holds⟩ := shaped.inhabited
    exact ⟨word, value, .inl holds⟩
  first := by
    intro token viable
    rcases Language.viable_either_iff.1 viable with viable | viable
    · exact List.mem_append_left _ (shaped.first token viable)
    · exact List.mem_append_right _ (shaped'.first token viable)
  next := by
    intro word value token holds viable
    rcases holds with holds | holds <;>
      rcases Language.viable_either_iff.1 viable with viable | viable <;>
      rcases word with _ | ⟨item, word⟩
    · exact absurd holds (shaped.filled filled value)
    · exact List.mem_append_left _ (shaped.next _ value token holds viable)
    · exact absurd holds (shaped.filled filled value)
    · exact absurd (shaped'.first_of_cons viable)
        (differs _ (shaped.first_of_cons (Language.viable_of_word holds)))
    · exact absurd holds (shaped'.filled filled' value)
    · exact absurd (shaped'.first_of_cons (Language.viable_of_word holds))
        (differs _ (shaped.first_of_cons viable))
    · exact absurd holds (shaped'.filled filled' value)
    · exact List.mem_append_right _ (shaped'.next _ value token holds viable)
  filled := by
    rintro - value (holds | holds)
    · exact shaped.filled filled value holds
    · exact shaped'.filled filled' value holds
  guardless := by
    rintro none word value (holds | holds)
    · exact shaped.guardless (Bool.or_eq_false_iff.1 none).1 word value holds
    · exact shaped'.guardless (Bool.or_eq_false_iff.1 none).2 word value holds

variable {language : Language Value} {shape : Shape}

theorem maybe (shaped : Shaped language shape) : Shaped (Maybe language) shape.repeated where
  inhabited := ⟨[], none, .none⟩
  first := by
    intro token viable
    rcases Language.viable_maybe_iff.1 viable with none | viable
    · simp at none
    · exact shaped.first token viable
  next := by
    intro word value token holds viable
    rcases Language.viable_maybe_iff.1 viable with none | viable
    · simp at none
    · cases holds with
      | none => exact List.mem_append_right _ (shaped.first token viable)
      | some holds => exact List.mem_append_left _ (shaped.next word _ token holds viable)
  filled none := by simp [Shape.repeated] at none
  guardless := by
    intro none word value holds
    cases holds with
    | none => exact List.not_mem_nil
    | some holds => exact shaped.guardless none word _ holds

end Shaped

/-- Any number of words is nothing, or a word and any number of words. -/
theorem star_iff {language : Language Value} {word : List Token} {values : List Value} :
    Star language word values ↔
      ((Maybe ((language.both (Star language)).map fun pair => pair.1 :: pair.2)).map
        fun found => found.getD []) word values := by
  constructor
  · intro holds
    cases holds with
    | nil => exact ⟨none, .none, rfl⟩
    | cons first rest => exact ⟨some _, .some ⟨(_, _), ⟨_, _, rfl, first, rest⟩, rfl⟩, rfl⟩
  · rintro ⟨found, holds, rfl⟩
    cases holds with
    | none => exact .nil
    | some holds =>
        obtain ⟨pair, ⟨front, back, rfl, first, rest⟩, rfl⟩ := holds
        exact .cons first rest

theorem star_eq (language : Language Value) : Star language =
    (Maybe ((language.both (Star language)).map fun pair => pair.1 :: pair.2)).map
      fun found => found.getD [] :=
  Language.same fun _ _ => star_iff

theorem viable_star_iff {language : Language Value} {word : List Token} :
    Language.Viable (Star language) word ↔
      word = [] ∨ (language.both (Star language)).Viable word := by
  rw [star_eq, Language.viable_map_iff, Language.viable_maybe_iff, Language.viable_map_iff,
    ← star_eq]

namespace Shaped

variable {language : Language Value} {shape : Shape}

theorem star_first (shaped : Shaped language shape) (filled : shape.empty = false) {token : Token}
    (viable : Language.Viable (Star language) [token]) : token.kind ∈ shape.firsts := by
  rcases viable_star_iff.1 viable with none | viable
  · simp at none
  · rcases viable.of_both with inFirst | ⟨front, back, value, same, some, holds, -⟩
    · exact shaped.first token inFirst
    · rcases front with _ | ⟨item, front⟩
      · exact absurd holds (shaped.filled filled value)
      · exact absurd (List.append_eq_nil_iff.1 (List.cons.inj same).2.symm).2 some

theorem star_guardless (shaped : Shaped language shape) (none : shape.guards = false)
    {word : List Token} {values : List Value} (holds : Star language word values) :
    .keyword .guard ∉ word := by
  induction holds with
  | nil => exact List.not_mem_nil
  | cons first rest induction =>
      intro member
      rcases List.mem_append.1 member with member | member
      · exact shaped.guardless none _ _ first member
      · exact induction member

theorem follows_star (shaped : Shaped language shape) (filled : shape.empty = false)
    (apart : shape.Apart shape) (none : shape.guards = false) :
    Follows language (Star language) where
  apart := by
    intro word value token token' holds viable viable' same
    exact apart _ (shaped.next word value token holds viable)
      (same ▸ shaped.star_first filled viable')
  clear := by
    rintro word value spill holds ⟨rest, values, more⟩ _ behind
    rcases List.mem_append.1 behind.guard_mem with inWord | inOver
    · exact absurd inWord (shaped.guardless none word value holds)
    · exact absurd (List.mem_append_left rest inOver) (shaped.star_guardless none more)
  brace := by
    intro word value holds behind
    exact absurd behind (shaped.not_behind_guard none (Language.viable_of_word holds))

theorem star (shaped : Shaped language shape) (follows : Follows language (Star language))
    (filled : shape.empty = false) : Shaped (Star language) shape.repeated where
  inhabited := ⟨[], [], .nil⟩
  first _ viable := shaped.star_first filled viable
  next := by
    intro word values token holds viable
    induction holds with
    | nil => exact List.mem_append_right _ (shaped.star_first filled viable)
    | cons first rest induction =>
        rcases viable_star_iff.1 viable with none | viable
        · simp at none
        · rcases follows.next_of_both first rest viable with later | ⟨-, inFirst⟩
          · exact induction later
          · exact List.mem_append_left _ (shaped.next _ _ token first inFirst)
  filled none := by simp [Shape.repeated] at none
  guardless none _ _ := shaped.star_guardless none

end Shaped

end KernelMenu.Grammar

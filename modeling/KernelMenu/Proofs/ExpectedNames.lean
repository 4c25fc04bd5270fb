import KernelMenu.ParseError
import KernelMenu.Proofs.Acceptance

/-!
The names in an error against what was looked for. Tokens with a fixed spelling have a name of
their own, and of the classes at most one is looked for at a time, so the names tell it all.
-/

namespace KernelMenu.Grammar

namespace Want

theorem mem_insert_name {name other : String} {names : List String} :
    name ∈ insertName other names ↔ name = other ∨ name ∈ names := by
  induction names with
  | nil => simp [insertName]
  | cons first names induction =>
      simp only [insertName]
      split
      · simp
      · split
        case isTrue same =>
          subst same
          simp
        case isFalse =>
          simp only [List.mem_cons, induction]
          exact or_left_comm

theorem mem_names_of {name : String} {names : List String} :
    name ∈ names.foldr insertName [] ↔ name ∈ names := by
  induction names with
  | nil => simp
  | cons first names induction => rw [List.foldr_cons, mem_insert_name, induction, List.mem_cons]

theorem mem_class_names {classes : List TokenClass} {name : String}
    (same : ∀ left ∈ classes, ∀ right ∈ classes, left = right) :
    name ∈ classNames classes ↔ ∃ tokens ∈ classes, name = tokens.label := by
  cases classes with
  | nil => simp [classNames]
  | cons first others =>
      have all : others.all (· = first) = true := by
        rw [List.all_eq_true]
        intro other member
        simpa using same other (List.mem_cons_of_mem _ member) first List.mem_cons_self
      simp only [classNames, all, if_true, List.mem_singleton]
      constructor
      · exact fun named => ⟨first, List.mem_cons_self, named⟩
      · rintro ⟨other, member, named⟩
        rw [named, same other member first List.mem_cons_self]

theorem mem_names {wants : List Want} {name : String}
    (same : ∀ left right, .oneOf left ∈ wants → .oneOf right ∈ wants → left = right) :
    name ∈ names wants ↔ (∃ token, .token token ∈ wants ∧ name = "'" ++ token.spelling ++ "'") ∨
      (.endOfInput ∈ wants ∧ name = "end of input") ∨
      ∃ tokens, .oneOf tokens ∈ wants ∧ name = tokens.label := by
  have member : ∀ tokens, tokens ∈ wants.filterMap class? ↔ .oneOf tokens ∈ wants := by
    intro tokens
    rw [List.mem_filterMap]
    constructor
    · rintro ⟨want, member, found⟩
      cases want with
      | oneOf other =>
          obtain rfl := Option.some.inj found
          exact member
      | token | endOfInput => exact nomatch found
    · exact fun member => ⟨_, member, rfl⟩
  have own : name ∈ wants.filterMap name? ↔
      (∃ token, .token token ∈ wants ∧ name = "'" ++ token.spelling ++ "'") ∨
        (.endOfInput ∈ wants ∧ name = "end of input") := by
    rw [List.mem_filterMap]
    constructor
    · rintro ⟨want, member, found⟩
      cases want with
      | token token => exact .inl ⟨token, member, (Option.some.inj found).symm⟩
      | endOfInput => exact .inr ⟨member, (Option.some.inj found).symm⟩
      | oneOf => exact nomatch found
    · rintro (⟨token, member, rfl⟩ | ⟨member, rfl⟩)
      · exact ⟨_, member, rfl⟩
      · exact ⟨_, member, rfl⟩
  rw [names, mem_names_of, List.mem_append, own, mem_class_names, or_assoc]
  · simp only [member]
  · intro left inLeft right inRight
    exact same left right ((member left).1 inLeft) ((member right).1 inRight)

end Want

section Names

theorem keyword_spelling_ne_mark (word : Keyword) (sign : Mark) :
    word.spelling ≠ sign.spelling := by
  have letters : word.spelling.toList.any Char.isLower = true := by
    cases word <;> decide
  have signs : sign.spelling.toList.any Char.isLower = false := by
    cases sign <;> decide
  intro same
  rw [same, signs] at letters
  exact nomatch letters

theorem eq_of_spelling {left right : Token} (fixed : left.kind ≠ .classed)
    (fixed' : right.kind ≠ .classed) (same : left.spelling = right.spelling) : left = right := by
  cases left with
  | keyword word =>
      cases right with
      | keyword word' => rw [Keyword.spelling_injective same]
      | mark sign => exact absurd same (keyword_spelling_ne_mark word sign)
      | text | hex | int | ident => exact absurd rfl fixed'
  | mark sign =>
      cases right with
      | keyword word => exact absurd same.symm (keyword_spelling_ne_mark word sign)
      | mark sign' => rw [Mark.spelling_injective same]
      | text | hex | int | ident => exact absurd rfl fixed'
  | text | hex | int | ident => exact absurd rfl fixed

theorem quoted_injective {left right : String} (same : "'" ++ left ++ "'" = "'" ++ right ++ "'") :
    left = right := by
  have parts := congrArg String.toList same
  rw [String.toList_append, String.toList_append, String.toList_append,
    String.toList_append] at parts
  exact String.toList_injective (List.append_cancel_left (List.append_cancel_right parts))

theorem quoted_ne {text name : String} (plain : name.toList.head? ≠ some '\'') :
    name ≠ "'" ++ text ++ "'" := by
  rintro rfl
  simp at plain

theorem TokenClass.label_injective {left right : TokenClass} (same : left.label = right.label) :
    left = right := by
  cases left <;> cases right <;> first | rfl | exact absurd same (by decide)

end Names

namespace Wanted

variable {word rest : List Token} {wants : List Want}

theorem mem_names (wanted : Wanted word rest wants) {name : String} : name ∈ Want.names wants ↔
    (∃ token, .token token ∈ wants ∧ name = "'" ++ token.spelling ++ "'") ∨
      (.endOfInput ∈ wants ∧ name = "end of input") ∨
      ∃ tokens, .oneOf tokens ∈ wants ∧ name = tokens.label :=
  Want.mem_names wanted.classes

theorem token_named (wanted : Wanted word rest wants) {token : Token}
    (fixed : token.kind ≠ .classed) :
    "'" ++ token.spelling ++ "'" ∈ Want.names wants ↔ .token token ∈ wants := by
  rw [wanted.mem_names]
  constructor
  · rintro (⟨other, member, same⟩ | ⟨-, same⟩ | ⟨tokens, -, same⟩)
    · rw [eq_of_spelling fixed (wanted.fixed other member) (quoted_injective same)]
      exact member
    · exact absurd same.symm (quoted_ne (by decide))
    · exact absurd same.symm (quoted_ne (by cases tokens <;> decide))
  · exact fun member => .inl ⟨token, member, rfl⟩

theorem end_named (wanted : Wanted word rest wants) :
    "end of input" ∈ Want.names wants ↔ .endOfInput ∈ wants := by
  rw [wanted.mem_names]
  constructor
  · rintro (⟨other, -, same⟩ | ⟨member, -⟩ | ⟨tokens, -, same⟩)
    · exact absurd same (quoted_ne (by decide))
    · exact member
    · cases tokens <;> exact absurd same (by decide)
  · exact fun member => .inr (.inl ⟨member, rfl⟩)

theorem class_named (wanted : Wanted word rest wants) (tokens : TokenClass) :
    tokens.label ∈ Want.names wants ↔ .oneOf tokens ∈ wants := by
  rw [wanted.mem_names]
  constructor
  · rintro (⟨other, -, same⟩ | ⟨-, same⟩ | ⟨other, member, same⟩)
    · exact absurd same (quoted_ne (by cases tokens <;> decide))
    · cases tokens <;> exact absurd same (by decide)
    · rwa [TokenClass.label_injective same]
  · exact fun member => .inr (.inr ⟨tokens, member, rfl⟩)

theorem sought_token (wanted : Wanted word rest wants) {token : Token}
    (fixed : token.kind ≠ .classed) :
    .token token ∈ wants ↔ Phrase.Source.Sought word rest token := by
  rw [← wanted.tokens token]
  constructor
  · exact fun member => ⟨_, member, rfl⟩
  · rintro ⟨want, member, admits⟩
    cases want with
    | token other =>
        have same : token = other := admits
        rwa [same]
    | endOfInput => exact admits.elim
    | oneOf tokens => exact absurd (TokenClass.classed_of_has admits) fixed

theorem sought_class (wanted : Wanted word rest wants) {token : Token}
    (classed : token.kind = .classed) :
    Phrase.Source.Sought word rest token ↔ ∃ tokens, .oneOf tokens ∈ wants ∧ tokens.Has token := by
  rw [← wanted.tokens token]
  constructor
  · rintro ⟨want, member, admits⟩
    cases want with
    | token other =>
        have same : token = other := admits
        exact absurd (same ▸ classed) (wanted.fixed other member)
    | endOfInput => exact admits.elim
    | oneOf tokens => exact ⟨tokens, member, admits⟩
  · rintro ⟨tokens, member, has⟩
    exact ⟨_, member, has⟩

section Classes

variable (wanted : Wanted word rest wants) (free : ¬ BehindGuard word)

include wanted free

theorem follows_iff {token : Token} (classed : token.kind = .classed) :
    Phrase.Source.Viable (word ++ [token]) ↔
      ∃ tokens, .oneOf tokens ∈ wants ∧ tokens.Has token := by
  rw [← wanted.sought_class classed]
  exact ⟨fun viable => ⟨viable, fun behind => absurd behind free⟩, And.left⟩

theorem token_iff {token : Token} (fixed : token.kind ≠ .classed) :
    .token token ∈ wants ↔ Phrase.Source.Viable (word ++ [token]) := by
  rw [wanted.sought_token fixed]
  exact ⟨And.left, fun viable => ⟨viable, fun behind => absurd behind free⟩⟩

theorem type_iff (type : ValueType) :
    .oneOf .type ∈ wants ↔ Phrase.Source.Viable (word ++ [.keyword type.keyword]) := by
  rw [wanted.follows_iff free (Phrase.type_kind type)]
  constructor
  · exact fun member => ⟨.type, member, type, rfl⟩
  · rintro ⟨tokens, member, has⟩
    cases tokens with
    | type => exact member
    | identifier | text | value => simp [TokenClass.Has] at has

theorem value_iff (digits : String) :
    .oneOf .value ∈ wants ↔ Phrase.Source.Viable (word ++ [.int digits]) := by
  rw [wanted.follows_iff free rfl]
  constructor
  · exact fun member => ⟨.value, member, .inr (.inl ⟨digits, rfl⟩)⟩
  · rintro ⟨tokens, member, has⟩
    cases tokens with
    | value => exact member
    | identifier | text | type => simp [TokenClass.Has] at has

theorem value_follows (member : .oneOf .value ∈ wants) {token : Token}
    (has : TokenClass.value.Has token) : Phrase.Source.Viable (word ++ [token]) :=
  (wanted.follows_iff free (TokenClass.classed_of_has has)).2 ⟨.value, member, has⟩

theorem identifier_iff (name : String) : .oneOf .identifier ∈ wants ↔
    Phrase.Source.Viable (word ++ [.ident name]) ∧
      ¬ ∃ digits, Phrase.Source.Viable (word ++ [.int digits]) := by
  constructor
  · intro member
    refine ⟨(wanted.follows_iff free rfl).2 ⟨_, member, name, rfl⟩, ?_⟩
    rintro ⟨digits, viable⟩
    have other := (wanted.value_iff free digits).2 viable
    exact nomatch wanted.classes _ _ member other
  · rintro ⟨viable, noNumber⟩
    obtain ⟨tokens, member, has⟩ := (wanted.follows_iff free rfl).1 viable
    cases tokens with
    | identifier => exact member
    | value => exact absurd ⟨"", (wanted.value_iff free "").1 member⟩ noNumber
    | text | type => simp [TokenClass.Has] at has

theorem text_iff (body : String) : .oneOf .text ∈ wants ↔
    Phrase.Source.Viable (word ++ [.text body]) ∧
      ¬ ∃ name, Phrase.Source.Viable (word ++ [.ident name]) := by
  constructor
  · intro member
    refine ⟨(wanted.follows_iff free rfl).2 ⟨_, member, body, rfl⟩, ?_⟩
    rintro ⟨name, viable⟩
    obtain ⟨tokens, other, has⟩ := (wanted.follows_iff free rfl).1 viable
    obtain rfl := wanted.classes _ _ member other
    simp [TokenClass.Has] at has
  · rintro ⟨viable, noName⟩
    obtain ⟨tokens, member, has⟩ := (wanted.follows_iff free rfl).1 viable
    cases tokens with
    | text => exact member
    | value =>
        exact absurd ⟨"", wanted.value_follows free member (.inl ⟨"", rfl⟩)⟩ noName
    | identifier | type => simp [TokenClass.Has] at has

end Classes

end Wanted

end KernelMenu.Grammar

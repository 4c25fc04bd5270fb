import KernelMenu.Proofs.ClauseSeam

/-!
What the words of symbols look like: braces are balanced in them, their first token tells which kind
of symbol they are, and none of them ends with the payload of a property. A guard keyword in front
of symbols is the head of a conditional block.
-/

namespace KernelMenu.Grammar

open KernelMenu.Grammar.Language

abbrev EntryClauses : Language (List Property × Option Expr) :=
  (Star Phrase.PropertyClause).both (Maybe Phrase.Inherited)

theorem property_star_first {token : Token}
    (viable : Language.Viable (Star Phrase.PropertyClause) [token]) :
    token.kind ∈ propertyShape.firsts := (property_reader 0).shaped.star_first rfl viable

theorem inherited_maybe_first {token : Token}
    (viable : Language.Viable (Maybe Phrase.Inherited) [token]) :
    token.kind ∈ [Kind.keyword .inherited] := (inherited_reader 0).shaped.maybe.first token viable

theorem entry_clauses : Clauses EntryClauses := by
  refine (property_clauses.star ?_).both inherited_clauses.maybe .none ?_
  · intro token viable
    exact (by decide : ∀ kind ∈ propertyShape.firsts, kind ∉ Phrase.payloadKinds) _
      (property_star_first viable)
  · intro token viable
    exact (by decide : ∀ kind ∈ [Kind.keyword .inherited], kind ∉ Phrase.payloadKinds) _
      (inherited_maybe_first viable)

theorem choice_star_clauses : Clauses (Star Phrase.ChoiceClause) := by
  refine choice_clauses.star fun token viable => ?_
  exact (by decide : ∀ kind ∈ choicePropertyShape.firsts, kind ∉ Phrase.payloadKinds) _
    ((choice_property_reader 0).shaped.star_first rfl viable)

namespace Phrase

/-- Balanced in the braces of a source. -/
abbrev Braced (word : List Token) : Prop :=
  Balanced (.mark .openBrace) (.mark .closeBrace) word

theorem braced_of_within {kinds : List Kind} {word : List Token} (within : Within kinds word)
    (opening : .mark .openBrace ∉ kinds) (closing : .mark .closeBrace ∉ kinds) : Braced word := by
  induction word with
  | nil => exact .nil
  | cons token word induction =>
      have head := within token List.mem_cons_self
      refine Balanced.append (show Braced [token] from .single ?_ ?_)
        (induction fun other member => within other (List.mem_cons_of_mem _ member))
      · rintro rfl
        exact opening head
      · rintro rfl
        exact closing head

theorem braced_clauses {Value : Type} {language : Language Value} (clauses : Clauses language)
    {word : List Token} {value : Value} (holds : language word value) : Braced word :=
  braced_of_within (clauses.within word value holds) (by decide) (by decide)

def headerKinds : List Kind :=
  [.keyword .config, .keyword .menuconfig, .keyword .menu, .keyword .choice, .keyword .optional,
    .classed]

theorem type_kind (type : ValueType) : (Token.keyword type.keyword).kind = .classed := by
  cases type <;> rfl

theorem header_within {word : List Token} {isMenu : Bool} {name : String} {type : ValueType}
    (holds : Header word isMenu name type) : Within headerKinds word := by
  have last : Within headerKinds [.keyword type.keyword] :=
    .cons (by rw [type_kind]; decide) nofun
  cases holds with
  | config => exact .cons (by decide) (.cons (List.mem_of_elem_eq_true rfl) last)
  | menuconfig => exact .cons (by decide) (.cons (List.mem_of_elem_eq_true rfl) last)

theorem menu_within (title : String) : Within headerKinds [.keyword .menu, .text title] :=
  .cons (by decide) (.cons (List.mem_of_elem_eq_true rfl) nofun)

theorem choice_within (type : ValueType) (isOptional : Bool) :
    Within headerKinds (.keyword .choice :: .keyword type.keyword ::
      if isOptional then [.keyword .optional] else []) := by
  refine .cons (by decide) (.cons (by rw [type_kind]; decide) ?_)
  cases isOptional with
  | false => exact nofun
  | true => exact .cons (by decide) nofun

theorem braces_braced {word : List Token} (inner : Braced word) :
    Braced (.mark .openBrace :: word ++ [.mark .closeBrace]) := inner.enclosed (by decide)

theorem symbol_braced {word : List Token} {drafts : List Draft} (holds : Symbol word drafts) :
    Braced word := by
  refine @Symbol.rec (fun word _ _ => Braced word) (fun word _ _ => Braced word)
    (fun word _ _ => Braced word) (fun word _ _ => Braced word)
    ?_ ?_ ?_ ?_ ?_ ?_ .nil ?_ .nil ?_ word drafts holds
  · intro header isMenu name type holds
    exact braced_of_within (header_within holds) (by decide) (by decide)
  · intro header clauses last symbols isMenu name type properties inherited children header'
      clauses' last' symbols' inner
    have head := braced_of_within (header_within header') (by decide) (by decide)
    have front : Braced (clauses ++ last) := braced_clauses entry_clauses
      (show EntryClauses _ (properties, inherited) from ⟨_, _, rfl, clauses', last'⟩)
    simpa using head.append (braces_braced (front.append inner))
  · intro title depends symbols condition children depends' symbols' inner
    have head := braced_of_within (menu_within title) (by decide) (by decide)
    have front : Braced depends := braced_clauses dependency_clauses.maybe depends'
    simpa using head.append (braces_braced (front.append inner))
  · exact fun _ inner => inner
  · intro type isOptional clauses entries properties options clauses' entries' inner
    have head := braced_of_within (choice_within type isOptional) (by decide) (by decide)
    have front : Braced clauses := braced_clauses choice_star_clauses clauses'
    simpa using head.append (braces_braced (front.append inner))
  · intro guard symbols condition children guard' symbols' inner
    have head : Braced guard := braced_of_within (guard_within guard') (by decide) (by decide)
    simpa using head.append (braces_braced inner)
  · exact fun _ _ first rest => first.append rest
  · exact fun _ _ first rest => first.append rest

theorem header_first {word : List Token} {isMenu : Bool} {name : String} {type : ValueType}
    (holds : Header word isMenu name type) : ∃ token rest, word = token :: rest ∧
      token.kind ∈ [Kind.keyword .config, .keyword .menuconfig] := by
  cases holds with
  | config => exact ⟨_, _, rfl, by decide⟩
  | menuconfig => exact ⟨_, _, rfl, by decide⟩

theorem config_first {word : List Token} {entry : ConfigClauses × List Draft}
    (holds : Config word entry) : ∃ token rest, word = token :: rest ∧
      token.kind ∈ [Kind.keyword .config, .keyword .menuconfig] := by
  cases holds with
  | bare header => exact header_first header
  | body header =>
      obtain ⟨token, rest, rfl, known⟩ := header_first header
      exact ⟨token, _, rfl, known⟩

def symbolKinds : List Kind :=
  [.keyword .menu, .keyword .config, .keyword .menuconfig, .keyword .choice, .keyword .guard]

theorem symbol_first {word : List Token} {drafts : List Draft} (holds : Symbol word drafts) :
    ∃ token rest, word = token :: rest ∧ token.kind ∈ symbolKinds := by
  cases holds with
  | menu => exact ⟨_, _, rfl, by decide⟩
  | config holds =>
      obtain ⟨token, rest, rfl, known⟩ := config_first holds
      exact ⟨token, rest, rfl, List.mem_cons_of_mem _ (List.mem_append_left _ known)⟩
  | choice => exact ⟨_, _, rfl, by decide⟩
  | block guard =>
      obtain ⟨tail, rfl, -⟩ := guard_cons guard
      exact ⟨_, _, rfl, by decide⟩

theorem symbol_head {after : List Token} {drafts : List Draft}
    (holds : Symbol (.keyword .guard :: after) drafts) : ∃ guard more condition,
      .keyword .guard :: after = guard ++ .mark .openBrace :: more ∧ Guard guard condition := by
  generalize whole : Token.keyword .guard :: after = word at holds
  cases holds with
  | menu => exact nomatch (List.cons.inj whole).1
  | config holds =>
      obtain ⟨token, rest, rfl, known⟩ := config_first holds
      obtain ⟨rfl, -⟩ := List.cons.inj whole
      exact absurd known (by decide)
  | choice => exact nomatch (List.cons.inj whole).1
  | block guard => exact ⟨_, _, _, List.append_assoc _ _ _, guard⟩

theorem not_behind_payload_of_closed (front : List Token) :
    ¬ BehindPayload (front ++ [.mark .closeBrace]) :=
  not_behind_payload front (by decide) (by decide) nofun

theorem config_not_behind_payload {word : List Token} {entry : ConfigClauses × List Draft}
    (holds : Config word entry) : ¬ BehindPayload word := by
  cases holds with
  | @bare header isMenu name type holds =>
      have behind : Within payloadKinds [.ident name, .keyword type.keyword] :=
        .cons (List.mem_of_elem_eq_true rfl) (.cons (by rw [type_kind]; decide) nofun)
      cases holds with
      | config => exact not_behind_payload [] (by decide) (by decide) behind
      | menuconfig => exact not_behind_payload [] (by decide) (by decide) behind
  | body => exact not_behind_payload_of_closed _

theorem symbol_not_behind_payload {word : List Token} {drafts : List Draft}
    (holds : Symbol word drafts) : ¬ BehindPayload word := by
  cases holds with
  | config holds => exact config_not_behind_payload holds
  | menu | choice | block => exact not_behind_payload_of_closed _

/-- The last token of a symbol is a brace or the type of an entry. -/
theorem symbol_last {word : List Token} {drafts : List Draft} (holds : Symbol word drafts) :
    ∃ front token, word = front ++ [token] ∧ token ≠ .mark .closeBracket := by
  cases holds with
  | config holds =>
      cases holds with
      | bare header =>
          cases header with
          | config | menuconfig => exact ⟨[_, _], _, rfl, nofun⟩
      | body => exact ⟨_, _, rfl, nofun⟩
  | menu | choice | block => exact ⟨_, _, rfl, nofun⟩

end Phrase

end KernelMenu.Grammar

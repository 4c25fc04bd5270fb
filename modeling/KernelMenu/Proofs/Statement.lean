import KernelMenu.Proofs.SourceReading

/-!
What a source says from left to right, without regard to what stands in what. Its tokens are cut
into stretches: headers of nodes, clauses, inherited conditions, the guards of conditional blocks,
and braces. There is one way at most to cut them.
-/

namespace KernelMenu

/-- What the header of a node says. -/
inductive NodeHeader where
  | entry (isMenu : Bool) (name : String) (type : ValueType)
  | menu (title : String)
  | choice (isBoolean isOptional : Bool)
deriving DecidableEq, Repr

/-- What a stretch of tokens says. A clause and an inherited condition are about the node whose
header came last. -/
inductive Statement where
  | header (header : NodeHeader)
  | clause (property : Property)
  | inherited (condition : Expr)
deriving DecidableEq, Repr

namespace Grammar

theorem Reader.unique {Value : Type} {rule : Rule Value} {language : Language Value} {shape : Shape}
    (reader : ∀ bound, Reader bound rule language shape) {word : List Token} {value value' : Value}
    (holds : language word value) (holds' : language word value') : value = value' := by
  have reads := (reader (word.length + 1)).reads word (Nat.lt_succ_self _)
  generalize rule word = outcome at reads
  cases reads with
  | fail none => exact absurd holds (none word [] value (List.append_nil _).symm)
  | @ok front rest found _ split _ _ longest only =>
      -- Nothing follows the whole word, so no brace can keep the rule from reading it.
      have reached : word.length ≤ front.length := by
        rcases longest word [] value (List.append_nil _).symm holds with shorter | blocked
        · exact shorter
        · exact nomatch blocked.2
      have nothing : rest = [] := by
        rw [split, List.length_append] at reached
        exact List.length_eq_zero_iff.1 (by omega)
      rw [split, nothing, List.append_nil] at holds holds'
      rw [only value holds, only value' holds']

theorem header_ended : Ended HeaderPhrase := (header_reader 0).shaped.ended rfl

theorem inherited_ended : Ended Phrase.Inherited := (inherited_reader 0).shaped.ended rfl

namespace Phrase

inductive Part where
  | entry | menu | choice | clause | inherited | guard | brace
deriving DecidableEq, Repr

def Part.ofKind : Kind → Option Part
  | .keyword .config | .keyword .menuconfig => some entry
  | .keyword .menu => some menu
  | .keyword .choice => some choice
  | .keyword .prompt | .keyword .depends | .keyword .default | .keyword .range | .keyword .select
  | .keyword .env => some clause
  | .keyword .inherited => some inherited
  | .keyword .guard => some guard
  | .mark .openBrace | .mark .closeBrace => some brace
  | _ => none

inductive Stretch : Part → List Token → Option Statement → Prop
  | entry {word : List Token} {isMenu : Bool} {name : String} {type : ValueType} :
      Header word isMenu name type → Stretch .entry word (some (.header (.entry isMenu name type)))
  | menu (title : String) :
      Stretch .menu [.keyword .menu, .text title] (some (.header (.menu title)))
  | choice (type : ValueType) (isOptional : Bool) :
      Stretch .choice (.keyword .choice :: .keyword type.keyword ::
          if isOptional then [.keyword .optional] else [])
        (some (.header (.choice (type = .boolean) isOptional)))
  | clause {word : List Token} {property : Property} :
      PropertyClause word property → Stretch .clause word (some (.clause property))
  | inherited {word : List Token} {condition : Expr} :
      Inherited word condition → Stretch .inherited word (some (.inherited condition))
  | guard {word : List Token} {condition : Expr} : Guard word condition → Stretch .guard word none
  | opening : Stretch .brace [.mark .openBrace] none
  | closing : Stretch .brace [.mark .closeBrace] none

/-- What may follow a stretch: the guard of a clause is not followed by an opening brace, and that
of a block is. -/
structure Fits (part : Part) (word rest : List Token) : Prop where
  clause : ¬ Blocked word rest
  block : part = .guard → rest.head? = some (.mark .openBrace)

/-- The tokens are stretches in a row, and the list holds what they say. -/
inductive Listing : List Token → List Statement → Prop
  | nil : Listing [] []
  | cons {part : Part} {word rest : List Token} {said : Option Statement}
      {statements : List Statement} :
      Stretch part word said → Fits part word rest → Listing rest statements →
      Listing (word ++ rest) (said.toList ++ statements)

theorem property_parts {word : List Token} {property : Property}
    (holds : PropertyClause word property) : ∃ name payload guard condition,
      word = .keyword name :: (payload ++ guard) ∧ Payload name payload ∧
        Maybe Guard guard condition := by
  cases holds with
  | prompt text guarded => exact ⟨_, [_], _, _, rfl, .prompt text, guarded⟩
  | depends dependency =>
      cases dependency with
      | intro bracketed guarded => exact ⟨_, _, _, _, rfl, .depends bracketed, guarded⟩
  | default bracketed guarded => exact ⟨_, _, _, _, rfl, .default bracketed, guarded⟩
  | range low high guarded => exact ⟨_, _, _, _, by simp, .range low high, guarded⟩
  | select target guarded => exact ⟨_, [_], _, _, rfl, .select target, guarded⟩
  | env name guarded => exact ⟨_, [_], _, _, rfl, .env name, guarded⟩

def innerKinds : List Kind := .keyword .guard :: .keyword .optional :: payloadKinds

theorem bracketed_inner {word : List Token} {value : Expr} (holds : Bracketed word value) :
    Within innerKinds word := (bracketed_within holds).mono (by decide)

theorem maybe_guard_inner {word : List Token} {condition : Option Expr}
    (holds : Maybe Guard word condition) : Within innerKinds word := by
  cases holds with
  | none => exact nofun
  | some holds =>
      obtain ⟨tail, rfl, bracketed⟩ := guard_cons holds
      exact .cons (by decide) (bracketed_inner bracketed)

theorem part_of_name {kind : Kind} (name : kind ∈ nameKinds) : Part.ofKind kind = some .clause :=
  (by decide : ∀ kind ∈ nameKinds, Part.ofKind kind = some .clause) kind name

theorem type_inner (type : ValueType) : (Token.keyword type.keyword).kind ∈ innerKinds := by
  rw [type_kind]
  decide

/-- The first token of a stretch tells of which kind it is, and no other token in it does. -/
theorem Stretch.first {part : Part} {word : List Token} {said : Option Statement}
    (holds : Stretch part word said) : ∃ token rest, word = token :: rest ∧
      Part.ofKind token.kind = some part ∧ Within innerKinds rest := by
  cases holds with
  | @entry _ isMenu name type header =>
      have behind : Within innerKinds [.ident name, .keyword type.keyword] :=
        .cons (List.mem_of_elem_eq_true rfl) (.cons (type_inner type) nofun)
      cases header with
      | config | menuconfig => exact ⟨_, _, rfl, rfl, behind⟩
  | menu => exact ⟨_, _, rfl, rfl, .cons (List.mem_of_elem_eq_true rfl) nofun⟩
  | choice type isOptional =>
      refine ⟨_, _, rfl, rfl, .cons (type_inner type) ?_⟩
      cases isOptional with
      | false => exact nofun
      | true => exact .cons (by decide) nofun
  | clause holds =>
      obtain ⟨name, payload, guard, condition, rfl, inPayload, guarded⟩ := property_parts holds
      have front : Within innerKinds payload := (payload_within inPayload).mono (by decide)
      exact ⟨_, _, rfl, part_of_name (payload_name inPayload),
        front.append (maybe_guard_inner guarded)⟩
  | inherited holds =>
      cases holds with
      | intro bracketed => exact ⟨_, _, rfl, rfl, bracketed_inner bracketed⟩
  | guard holds =>
      obtain ⟨tail, rfl, bracketed⟩ := guard_cons holds
      exact ⟨_, _, rfl, rfl, bracketed_inner bracketed⟩
  | opening | closing => exact ⟨_, _, rfl, rfl, nofun⟩

theorem Listing.first {token : Token} {rest : List Token} {statements : List Statement}
    (listing : Listing (token :: rest) statements) :
    ∃ part, Part.ofKind token.kind = some part := by
  generalize whole : token :: rest = words at listing
  cases listing with
  | nil => exact nomatch whole
  | cons stretch =>
      obtain ⟨first, others, rfl, begins, -⟩ := stretch.first
      obtain ⟨rfl, -⟩ := List.cons.inj whole
      exact ⟨_, begins⟩

theorem Listing.block {rest : List Token} {statements : List Statement}
    (listing : Listing (.keyword .guard :: rest) statements) : ∃ guard more condition,
      .keyword .guard :: rest = guard ++ .mark .openBrace :: more ∧ Guard guard condition := by
  generalize whole : Token.keyword .guard :: rest = words at listing
  cases listing with
  | nil => exact nomatch whole
  | @cons part word others said statements stretch fits listing =>
      obtain ⟨first, others', same, begins, -⟩ := stretch.first
      rw [same] at whole
      obtain ⟨rfl, -⟩ := List.cons.inj whole
      obtain rfl : Part.guard = part := Option.some.inj begins
      cases stretch with
      | guard holds =>
          obtain ⟨more, rfl⟩ := List.head?_eq_some_iff.1 (fits.block rfl)
          exact ⟨word, more, _, rfl, holds⟩

/-- A clause does not stop in front of its own guard. -/
theorem Listing.not_longer {word spill rest : List Token} {token : Token}
    {property property' : Property} {statements : List Statement}
    (shorter : PropertyClause word property)
    (longer : PropertyClause (word ++ token :: spill) property')
    (free : ¬ Blocked (word ++ token :: spill) rest)
    (listing : Listing (token :: spill ++ rest) statements) : False := by
  have viable : PropertyClause.Viable (word ++ [token] ++ spill) := by
    simpa using Language.viable_of_word longer
  have next := (property_reader 0).shaped.next word property token shorter viable.of_append
  obtain rfl : token = .keyword .guard := Token.eq_keyword_of_kind (List.eq_of_mem_replicate next)
  obtain ⟨behind, guard, more, condition, same, holds⟩ :=
    property_clauses.whole _ _ longer word spill rfl
  obtain ⟨guard', more', condition', same', holds'⟩ := listing.block
  have whole : guard ++ (more ++ rest) = guard' ++ .mark .openBrace :: more' := by
    rw [← List.append_assoc, ← same]
    exact same'
  obtain ⟨rfl, rest'⟩ := guard_ended.split_unique holds holds' whole
  -- A clause has no brace, so the brace of the block stands right behind the guard of the clause.
  cases more with
  | nil =>
      rw [List.append_nil] at same
      rw [List.nil_append] at rest'
      apply free
      rw [same, rest']
      exact ⟨behind.guard holds, rfl⟩
  | cons other more =>
      obtain ⟨rfl, -⟩ := List.cons.inj rest'
      have braceless := property_clauses.braceless longer
      rw [same] at braceless
      exact braceless (by simp)

section Unique

variable {word rest word' rest' : List Token} {statements statements' : List Statement}

theorem clause_unique {property property' : Property} (holds : PropertyClause word property)
    (holds' : PropertyClause word' property') (same : word ++ rest = word' ++ rest')
    (free : ¬ Blocked word rest) (free' : ¬ Blocked word' rest')
    (listing : Listing rest statements) (listing' : Listing rest' statements') :
    word = word' ∧ property = property' := by
  rcases append_compare same with ⟨token, spill, rfl, rfl⟩ | ⟨spill, rfl, rfl⟩
  · exact (Listing.not_longer holds holds' free' listing).elim
  · cases spill with
    | nil =>
        rw [List.append_nil] at holds
        exact ⟨List.append_nil _, Reader.unique property_reader holds holds'⟩
    | cons token spill => exact (Listing.not_longer holds' holds free listing').elim

theorem choice_unique {type type' : ValueType} {isOptional isOptional' : Bool}
    (same : (.keyword .choice :: .keyword type.keyword ::
        if isOptional then [.keyword .optional] else []) ++ rest =
      (.keyword .choice :: .keyword type'.keyword ::
        if isOptional' then [.keyword .optional] else []) ++ rest')
    (listing : Listing rest statements) (listing' : Listing rest' statements') :
    type = type' ∧ isOptional = isOptional' := by
  simp only [List.cons_append, List.cons.injEq, true_and, Token.keyword.injEq] at same
  obtain ⟨sameType, sameRest⟩ := same
  have typed : type = type' := by
    cases type <;> cases type' <;> first | rfl | exact nomatch sameType
  refine ⟨typed, ?_⟩
  cases isOptional with
  | false =>
      cases isOptional' with
      | false => rfl
      | true =>
          rw [show rest = .keyword .optional :: rest' from sameRest] at listing
          obtain ⟨part, begins⟩ := listing.first
          exact nomatch begins
  | true =>
      cases isOptional' with
      | true => rfl
      | false =>
          rw [show rest' = .keyword .optional :: rest from sameRest.symm] at listing'
          obtain ⟨part, begins⟩ := listing'.first
          exact nomatch begins

/-- There is one way at most to cut a stretch of some kind off. -/
theorem Stretch.unique {part : Part} {said said' : Option Statement}
    (stretch : Stretch part word said) (stretch' : Stretch part word' said')
    (same : word ++ rest = word' ++ rest') (fits : Fits part word rest)
    (fits' : Fits part word' rest') (listing : Listing rest statements)
    (listing' : Listing rest' statements') : word = word' ∧ said = said' := by
  cases stretch with
  | @entry _ isMenu name type holds =>
      cases stretch' with
      | @entry _ isMenu' name' type' holds' =>
          have left : HeaderPhrase word ((isMenu, name), type) := holds
          have right : HeaderPhrase word' ((isMenu', name'), type') := holds'
          obtain ⟨rfl, -⟩ := header_ended.split_unique left right same
          cases Reader.unique header_reader left right
          exact ⟨rfl, rfl⟩
  | menu title =>
      cases stretch' with
      | menu title' =>
          obtain rfl : title = title' := by simpa using (List.cons.inj (List.cons.inj same).2).1
          exact ⟨rfl, rfl⟩
  | choice type isOptional =>
      cases stretch' with
      | choice type' isOptional' =>
          obtain ⟨rfl, rfl⟩ := choice_unique same listing listing'
          exact ⟨rfl, rfl⟩
  | clause holds =>
      cases stretch' with
      | clause holds' =>
          obtain ⟨rfl, rfl⟩ := clause_unique holds holds' same fits.clause fits'.clause listing
            listing'
          exact ⟨rfl, rfl⟩
  | inherited holds =>
      cases stretch' with
      | inherited holds' =>
          obtain ⟨rfl, -⟩ := inherited_ended.split_unique holds holds' same
          rw [Reader.unique inherited_reader holds holds']
          exact ⟨rfl, rfl⟩
  | guard holds =>
      cases stretch' with
      | guard holds' =>
          obtain ⟨rfl, -⟩ := guard_ended.split_unique holds holds' same
          exact ⟨rfl, rfl⟩
  | opening =>
      cases stretch' with
      | opening => exact ⟨rfl, rfl⟩
      | closing => exact nomatch (List.cons.inj same).1
  | closing =>
      cases stretch' with
      | opening => exact nomatch (List.cons.inj same).1
      | closing => exact ⟨rfl, rfl⟩

/-- There is one way at most to cut tokens into stretches. -/
theorem Listing.unique {words : List Token} (listing : Listing words statements)
    (listing' : Listing words statements') : statements = statements' := by
  induction listing generalizing statements' with
  | nil =>
      generalize nothing : [] = words at listing'
      cases listing' with
      | nil => rfl
      | cons stretch =>
          obtain ⟨token, others, rfl, -⟩ := stretch.first
          exact nomatch nothing
  | @cons part word rest said others stretch fits listing induction =>
      generalize whole : word ++ rest = words at listing'
      cases listing' with
      | nil =>
          obtain ⟨token, others, rfl, -⟩ := stretch.first
          exact nomatch whole
      | @cons part' word' rest' said' others' stretch' fits' listing' =>
          obtain ⟨token, tail, rfl, begins, -⟩ := stretch.first
          obtain ⟨token', tail', rfl, begins', -⟩ := stretch'.first
          obtain rfl := (List.cons.inj whole).1
          obtain rfl := Option.some.inj (begins.symm.trans begins')
          obtain ⟨sameWord, rfl⟩ := stretch.unique stretch' whole fits fits' listing listing'
          rw [sameWord] at whole
          rw [List.append_cancel_left whole] at induction
          rw [induction listing']

end Unique

end Phrase

end Grammar

end KernelMenu

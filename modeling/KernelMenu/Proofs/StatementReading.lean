import KernelMenu.Proofs.Statement
import Mathlib.Data.List.Infix

/-!
What a few tokens in a row show of the statements of a source: which keyword each of them begins
with, what the headers say, and which names stand behind a keyword. It is found anywhere among the
tokens, without regard to the grammar, and it is just what the statements say, in the same order.
-/

namespace KernelMenu

open Grammar Phrase

/-- A keyword with which a header, a clause or an inherited condition begins. -/
def Keyword.opens : Keyword → Bool
  | config | menuconfig | menu | choice | prompt | depends | default | range | select | env
  | inherited => true
  | guard | optional | on | boolean | tristate | integer | hex | string => false

def Token.opening? : Token → Option Keyword
  | .keyword word => if word.opens then some word else none
  | _ => none

namespace NodeHeader

/-- The header at the front of tokens. -/
def read? : List Token → Option NodeHeader
  | .keyword .config :: .ident name :: .keyword word :: _ =>
      (ValueType.all.find? fun type => type.keyword = word).map (.entry false name)
  | .keyword .menuconfig :: .ident name :: .keyword word :: _ =>
      (ValueType.all.find? fun type => type.keyword = word).map (.entry true name)
  | .keyword .menu :: .text title :: _ => some (.menu title)
  | .keyword .choice :: .keyword word :: rest =>
      some (.choice (word = .boolean) (rest.head? = some (.keyword .optional)))
  | _ => none

def keyword : NodeHeader → Keyword
  | entry isMenu _ _ => if isMenu then .menuconfig else .config
  | menu _ => .menu
  | choice _ _ => .choice

end NodeHeader

/-- The identifier behind a keyword at the front of tokens. -/
def nameBehind? (wanted : Keyword) : List Token → Option String
  | first :: .ident name :: _ => if first = .keyword wanted then some name else none
  | _ => none

def Property.keyword : Property → Keyword
  | prompt _ => .prompt
  | dependsOn _ => .depends
  | default _ => .default
  | range _ => .range
  | select _ => .select
  | env _ => .env

namespace Statement

def keyword : Statement → Keyword
  | .header head => head.keyword
  | .clause property => property.keyword
  | .inherited _ => .inherited

def header? : Statement → Option NodeHeader
  | .header head => some head
  | _ => none

def property? : Statement → Option Property
  | .clause property => some property
  | _ => none

end Statement

namespace Grammar.Phrase

/-- A reader that finds nothing at the tokens within a stretch. -/
def SkipsInner {Value : Type} (read? : List Token → Option Value) : Prop :=
  ∀ token rest, token.kind ∈ innerKinds → read? (token :: rest) = none

section Readings

variable {Value : Type} {read? : List Token → Option Value} {value? : Statement → Option Value}

theorem tails_of_inner (skips : SkipsInner read?) {word rest : List Token}
    (within : Within innerKinds word) :
    (word ++ rest).tails.filterMap read? = rest.tails.filterMap read? := by
  induction word with
  | nil => rfl
  | cons token word induction =>
      have others := induction fun other member => within other (List.mem_cons_of_mem _ member)
      have nothing := skips token (word ++ rest) (within token List.mem_cons_self)
      rw [List.cons_append, List.tails_cons, List.filterMap_cons, nothing, others]

/-- A reader that finds at the front of a stretch what the stretch says finds, from left to right,
what all stretches say. -/
theorem Listing.readings (skips : SkipsInner read?) (nothing : read? [] = none)
    (reads : ∀ part word rest said statements, Stretch part word said → Listing rest statements →
      read? (word ++ rest) = said.bind value?)
    {words : List Token} {statements : List Statement} (listing : Listing words statements) :
    words.tails.filterMap read? = statements.filterMap value? := by
  induction listing with
  | nil => simp [nothing]
  | @cons part word rest said statements stretch _ listing induction =>
      have front := reads part word rest said statements stretch listing
      obtain ⟨token, tail, rfl, -, within⟩ := stretch.first
      rw [List.cons_append] at front ⊢
      rw [List.tails_cons, List.filterMap_cons, front, tails_of_inner skips within, induction]
      cases said with
      | none => rfl
      | some statement => simp [List.filterMap_cons]

end Readings

theorem tails_head {Value : Type} (meaning : Token → Option Value) (words : List Token) :
    (words.tails.filterMap fun rest => rest.head?.bind meaning) = words.filterMap meaning := by
  induction words with
  | nil => rfl
  | cons token words induction =>
      rw [List.tails_cons, List.filterMap_cons, List.filterMap_cons, induction]
      rfl

/-- The keywords of a source, from left to right. -/
theorem Listing.keywords {words : List Token} {statements : List Statement}
    (listing : Listing words statements) :
    words.filterMap Token.opening? = statements.map Statement.keyword := by
  rw [← tails_head, ← List.filterMap_eq_map]
  apply listing.readings _ rfl
  · intro part word rest said statements stretch _
    cases stretch with
    | entry header =>
        cases header with
        | config | menuconfig => rfl
    | clause holds =>
        cases holds with
        | depends dependency =>
            cases dependency with
            | intro => rfl
        | prompt | default | range | select | env => rfl
    | inherited holds =>
        cases holds with
        | intro => rfl
    | guard holds =>
        obtain ⟨tail, rfl, -⟩ := guard_cons holds
        rfl
    | menu | choice | opening | closing => rfl
  · intro token rest inner
    cases token with
    | keyword word => cases word <;> first | rfl | exact absurd inner (by decide)
    | mark | text | hex | int | ident => rfl

/-- How often a keyword stands among the tokens is how many statements begin with it. -/
theorem Listing.count_keyword {word : Keyword} (opens : word.opens = true) {words : List Token}
    {statements : List Statement} (listing : Listing words statements) :
    words.count (.keyword word) = (statements.map Statement.keyword).count word := by
  rw [← listing.keywords, List.count, List.count, List.countP_filterMap]
  apply List.countP_congr
  intro token _
  cases token with
  | keyword other =>
      by_cases same : other = word
      · simp [same, Token.opening?, opens]
      · cases opening : other.opens <;> simp [same, Token.opening?, opening]
  | mark | text | hex | int | ident => simp [Token.opening?]

theorem opens_of_name {word : Keyword} (name : (Token.keyword word).kind ∈ nameKinds) :
    word.opens = true := by
  cases word <;> first | rfl | exact absurd name (by decide)

theorem header_keyword (head : NodeHeader) : (Token.keyword head.keyword).kind ∉ nameKinds := by
  cases head with
  | entry isMenu =>
      cases isMenu with
      | false => exact (by decide : (Token.keyword .config).kind ∉ nameKinds)
      | true => exact (by decide : (Token.keyword .menuconfig).kind ∉ nameKinds)
  | menu => exact (by decide : (Token.keyword .menu).kind ∉ nameKinds)
  | choice => exact (by decide : (Token.keyword .choice).kind ∉ nameKinds)

theorem property_keyword {Value : Type} {word : Keyword} {kind? : Property → Option Value}
    (name : (Token.keyword word).kind ∈ nameKinds)
    (same : ∀ property : Property, (kind? property).isSome = (property.keyword == word))
    (statement : Statement) :
    (statement.property?.bind kind?).isSome = (statement.keyword == word) := by
  cases statement with
  | clause property => exact same property
  | header head =>
      symm
      apply beq_eq_false_iff_ne.2
      rintro rfl
      exact header_keyword head name
  | inherited =>
      symm
      apply beq_eq_false_iff_ne.2
      rintro rfl
      exact (by decide : (Token.keyword .inherited).kind ∉ nameKinds) name

theorem Listing.count_clauses {words : List Token} {statements : List Statement}
    (listing : Listing words statements) {Value : Type} (word : Keyword)
    (kind? : Property → Option Value) (name : (Token.keyword word).kind ∈ nameKinds)
    (same : ∀ property : Property, (kind? property).isSome = (property.keyword == word)) :
    words.count (.keyword word) =
      (statements.filterMap fun statement => statement.property?.bind kind?).length := by
  rw [listing.count_keyword (opens_of_name name), List.count, List.countP_map,
    List.length_filterMap_eq_countP]
  apply List.countP_congr
  intro statement _
  rw [property_keyword name same]
  rfl

theorem type_of_keyword (type : ValueType) :
    (ValueType.all.find? fun other => other.keyword = type.keyword) = some type := by
  cases type <;> rfl

theorem header_other {token : Token}
    (other : ∀ part ∈ [Part.entry, .menu, .choice], Part.ofKind token.kind ≠ some part)
    (rest : List Token) : NodeHeader.read? (token :: rest) = none := by
  cases token with
  | keyword word => cases word <;> first | rfl | exact absurd rfl (other _ (by decide))
  | mark | text | hex | int | ident => rfl

theorem header_skips : SkipsInner NodeHeader.read? := by
  intro token rest inner
  apply header_other
  intro part header begins
  have known := (by decide : ∀ kind ∈ innerKinds, ∀ part ∈ [Part.entry, .menu, .choice],
    Part.ofKind kind ≠ some part) token.kind inner part header
  exact known begins

theorem header_of_choice (type : ValueType) (isOptional : Bool) {rest : List Token}
    {statements : List Statement} (listing : Listing rest statements) :
    NodeHeader.read? ((.keyword .choice :: .keyword type.keyword ::
        if isOptional then [.keyword .optional] else []) ++ rest) =
      some (.choice (type = .boolean) isOptional) := by
  have typed : decide (type.keyword = .boolean) = decide (type = .boolean) := by
    cases type <;> rfl
  have option : decide (((if isOptional then [Token.keyword .optional] else []) ++ rest).head? =
      some (.keyword .optional)) = isOptional := by
    cases isOptional with
    | true => rfl
    | false =>
        apply decide_eq_false
        intro same
        obtain ⟨others, rfl⟩ := List.head?_eq_some_iff.1 same
        obtain ⟨part, begins⟩ := listing.first
        exact nomatch begins
  rw [List.cons_append, List.cons_append, NodeHeader.read?, typed, option]

/-- The headers of a source, from left to right. -/
theorem Listing.headers {words : List Token} {statements : List Statement}
    (listing : Listing words statements) :
    words.tails.filterMap NodeHeader.read? = statements.filterMap Statement.header? := by
  apply listing.readings header_skips rfl
  intro part word rest said statements stretch behind
  -- Only at the first token of a header there is one to be found.
  have other (plain : part ∉ [Part.entry, .menu, .choice]) :
      NodeHeader.read? (word ++ rest) = none := by
    obtain ⟨token, tail, rfl, begins, -⟩ := stretch.first
    apply header_other
    intro part' header begins'
    obtain rfl := Option.some.inj (begins.symm.trans begins')
    exact plain header
  cases stretch with
  | @entry _ isMenu name type header =>
      cases header with
      | config | menuconfig => exact congrArg (Option.map _) (type_of_keyword type)
  | menu => rfl
  | choice type isOptional => exact header_of_choice type isOptional behind
  | clause | inherited | guard | opening | closing => exact other (by decide)

theorem Listing.count_headers {words : List Token} {statements : List Statement}
    (listing : Listing words statements) :
    (statements.filterMap Statement.header?).length =
      words.count (.keyword .config) + words.count (.keyword .menuconfig) +
        words.count (.keyword .menu) + words.count (.keyword .choice) := by
  rw [listing.count_keyword rfl, listing.count_keyword rfl, listing.count_keyword rfl,
    listing.count_keyword rfl]
  clear listing
  induction statements with
  | nil => rfl
  | cons statement statements induction =>
      have split : ([statement].filterMap Statement.header?).length =
          [statement.keyword].count .config + [statement.keyword].count .menuconfig +
            [statement.keyword].count .menu + [statement.keyword].count .choice := by
        cases statement with
        | header head =>
            cases head with
            | entry isMenu => cases isMenu <;> rfl
            | menu | choice => rfl
        | clause property => cases property <;> rfl
        | inherited => rfl
      rw [← List.singleton_append, List.filterMap_append, List.length_append, List.map_append]
      simp only [List.count_append, List.map_cons, List.map_nil]
      omega

theorem name_behind_other {wanted : Keyword} {token : Token} (other : token ≠ .keyword wanted)
    (rest : List Token) : nameBehind? wanted (token :: rest) = none := by
  rw [nameBehind?.eq_def]
  split
  case h_1 first name tail same =>
    obtain ⟨rfl, -⟩ := List.cons.inj same
    rw [if_neg other]
  case h_2 => rfl

theorem name_behind_skips {wanted : Keyword} (name : (Token.keyword wanted).kind ∈ nameKinds) :
    SkipsInner (nameBehind? wanted) := by
  intro token rest inner
  apply name_behind_other
  rintro rfl
  exact (by decide : ∀ kind ∈ nameKinds, kind ∉ innerKinds) _ name inner

theorem Listing.names {wanted : Keyword} {name? : Property → Option String}
    (name : (Token.keyword wanted).kind ∈ nameKinds)
    (reads : ∀ word property rest, PropertyClause word property →
      nameBehind? wanted (word ++ rest) = name? property)
    {words : List Token} {statements : List Statement} (listing : Listing words statements) :
    words.tails.filterMap (nameBehind? wanted) =
      statements.filterMap fun statement => statement.property?.bind name? := by
  apply listing.readings (name_behind_skips name) rfl
  intro part word rest said statements stretch _
  have other (plain : part ≠ .clause) : nameBehind? wanted (word ++ rest) = none := by
    obtain ⟨token, tail, rfl, begins, -⟩ := stretch.first
    apply name_behind_other
    rintro rfl
    exact plain (Option.some.inj (begins.symm.trans (part_of_name name)))
  cases stretch with
  | clause holds => exact reads word _ rest holds
  | entry | menu | choice | inherited | guard | opening | closing => exact other nofun

theorem Listing.select_names {words : List Token} {statements : List Statement}
    (listing : Listing words statements) : words.tails.filterMap (nameBehind? .select) =
      statements.filterMap fun statement =>
        statement.property?.bind fun property => property.select?.map Guarded.payload := by
  apply listing.names (by decide)
  intro word property rest holds
  cases holds with
  | select target => rfl
  | depends dependency =>
      cases dependency with
      | intro => rfl
  | prompt | default | range | env =>
      apply name_behind_other
      exact nofun

theorem Listing.env_names {words : List Token} {statements : List Statement}
    (listing : Listing words statements) : words.tails.filterMap (nameBehind? .env) =
      statements.filterMap fun statement =>
        statement.property?.bind fun property => property.env?.map Guarded.payload := by
  apply listing.names (by decide)
  intro word property rest holds
  cases holds with
  | env name => rfl
  | depends dependency =>
      cases dependency with
      | intro => rfl
  | prompt | default | range | select =>
      apply name_behind_other
      exact nofun

end Grammar.Phrase

end KernelMenu

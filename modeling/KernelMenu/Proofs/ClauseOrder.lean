import KernelMenu.Proofs.StatementOrder
import KernelMenu.Proofs.StatementReading
import Mathlib.Data.List.Perm.Basic
import Mathlib.Logic.Relation

/-!
The order of clauses in the body of an entry or a choice. What the clauses are sorted into depends
only on the first prompt and, for each other keyword, on the clauses with that keyword in their
order; so clauses with different keywords may change places, and prompts may be added behind the
first one.
-/

namespace KernelMenu

open Grammar Phrase

/-- Only clauses with the keyword have such a value. -/
def Property.Only {Value : Type} (name : Keyword) (value? : Property → Option Value) : Prop :=
  ∀ property : Property, property.keyword ≠ name → value? property = none

namespace Property

theorem prompt_only : Only .prompt prompt? := by
  rintro ⟨⟩ other <;> first | rfl | exact absurd rfl other

theorem default_only : Only .default default? := by
  rintro ⟨⟩ other <;> first | rfl | exact absurd rfl other

theorem depends_only : Only .depends dependsOn? := by
  rintro ⟨⟩ other <;> first | rfl | exact absurd rfl other

theorem select_only : Only .select select? := by
  rintro ⟨⟩ other <;> first | rfl | exact absurd rfl other

theorem range_only : Only .range range? := by
  rintro ⟨⟩ other <;> first | rfl | exact absurd rfl other

theorem env_only : Only .env env? := by
  rintro ⟨⟩ other <;> first | rfl | exact absurd rfl other

/-- What is taken out of clauses of one kind depends only on the clauses of that kind. -/
theorem Only.filter_map {Value : Type} {value? : Property → Option Value} {name : Keyword}
    (only : Only name value?) {properties properties' : List Property}
    (kept : properties.filter (fun property => property.keyword = name) =
      properties'.filter fun property => property.keyword = name) :
    properties.filterMap value? = properties'.filterMap value? := by
  have own : ∀ list : List Property, (list.filter fun property => property.keyword = name).filterMap
      value? = list.filterMap value? := by
    intro list
    rw [List.filterMap_filter]
    apply List.filterMap_congr
    intro property _
    by_cases same : property.keyword = name
    · simp [same]
    · simp [same, only property same]
  rw [← own properties, kept, own]

end Property

/-- The first prompt is the same, and so are the clauses of each other kind in their order. -/
structure SortedAlike (properties properties' : List Property) : Prop where
  prompt : properties.findSome? Property.prompt? = properties'.findSome? Property.prompt?
  others : ∀ name, name ≠ .prompt → properties.filter (fun property => property.keyword = name) =
    properties'.filter fun property => property.keyword = name

namespace SortedAlike

variable {properties properties' : List Property}

theorem entry (alike : SortedAlike properties properties') (name : String) (isMenu : Bool)
    (type : ValueType) (inherited : Option Expr) :
    ConfigClauses.sorted ⟨name, isMenu, type, properties, inherited⟩ =
      ConfigClauses.sorted ⟨name, isMenu, type, properties', inherited⟩ := by
  have defaults := Property.default_only.filter_map (alike.others .default (by decide))
  have selects := Property.select_only.filter_map (alike.others .select (by decide))
  have ranges := Property.range_only.filter_map (alike.others .range (by decide))
  have dependsOn := Property.depends_only.filter_map (alike.others .depends (by decide))
  have env := Property.env_only.filter_map (alike.others .env (by decide))
  simp only [ConfigClauses.sorted, alike.prompt, defaults, selects, ranges, dependsOn, env]

theorem choice (alike : SortedAlike properties properties') (type : ValueType)
    (isOptional : Bool) :
    ChoiceClauses.sorted? ⟨type, isOptional, properties⟩ =
      ChoiceClauses.sorted? ⟨type, isOptional, properties'⟩ := by
  have defaults := Property.default_only.filter_map (alike.others .default (by decide))
  have dependsOn := Property.depends_only.filter_map (alike.others .depends (by decide))
  simp only [ChoiceClauses.sorted?, ChoiceClauses.prompt?, alike.prompt, defaults, dependsOn]

theorem of_kept (kept : ∀ name, properties.filter (fun property => property.keyword = name) =
    properties'.filter fun property => property.keyword = name) :
    SortedAlike properties properties' where
  prompt := by
    rw [← List.head?_filterMap, ← List.head?_filterMap,
      Property.prompt_only.filter_map (kept .prompt)]
  others name _ := kept name

theorem of_prompt (front middle back : List Property) (text text' : Guarded String) :
    SortedAlike (front ++ .prompt text :: (middle ++ back))
      (front ++ .prompt text :: (middle ++ .prompt text' :: back)) where
  prompt := by
    rw [List.findSome?_append, List.findSome?_append]
    rfl
  others name other := by
    have skipped : decide ((Property.prompt text').keyword = name) = false :=
      decide_eq_false (Ne.symm other)
    simp only [List.filter_append, List.filter_cons, skipped, Bool.false_eq_true, if_false]

end SortedAlike

namespace Grammar.Phrase

/-- The clauses that begin with a keyword, in their order. -/
def ofKeyword (name : Keyword) (clauses : List (List Token)) : List (List Token) :=
  clauses.filter fun clause => clause.head? = some (.keyword name)

/-- The clauses of a body come in another order, and each keyword keeps the order of its clauses; or
there is a prompt more behind the first one. -/
inductive Reordered : List (List Token) → List (List Token) → Prop
  | permuted {clauses clauses' : List (List Token)} : clauses.Perm clauses' →
      (∀ name, ofKeyword name clauses = ofKeyword name clauses') → Reordered clauses clauses'
  | prompt {front middle back : List (List Token)} {first extra : List Token}
      {text text' : Guarded String} : PropertyClause first (.prompt text) →
      PropertyClause extra (.prompt text') →
      Reordered (front ++ first :: (middle ++ back)) (front ++ first :: (middle ++ extra :: back))

theorem keyword_of_clause {word : List Token} {property : Property}
    (holds : PropertyClause word property) : word.head? = some (.keyword property.keyword) := by
  cases holds with
  | depends holds =>
      cases holds
      rfl
  | prompt | default | range | select | env => rfl

theorem filter_of_clauses {clauses : List (List Token)} {properties : List Property}
    (holds : List.Forall₂ PropertyClause clauses properties) (name : Keyword) :
    List.Forall₂ PropertyClause (ofKeyword name clauses)
      (properties.filter fun property => property.keyword = name) := by
  apply List.rel_filter _ holds
  intro clause property also
  simp [keyword_of_clause also]

theorem properties_unique {clauses : List (List Token)} {properties properties' : List Property}
    (holds : List.Forall₂ PropertyClause clauses properties)
    (holds' : List.Forall₂ PropertyClause clauses properties') : properties = properties' := by
  have unique : Relator.RightUnique PropertyClause :=
    fun _ _ _ first second => Reader.unique property_reader first second
  exact unique.forall₂ holds holds'

section Language

variable {language : Language Property} {clauses clauses' : List (List Token)}
  {properties : List Property}

theorem star_of_clauses (holds : List.Forall₂ language clauses properties) :
    Star language clauses.flatten properties := by
  induction holds with
  | nil => exact .nil
  | cons first _ induction => exact .cons first induction

theorem clauses_append {front back : List (List Token)}
    (holds : List.Forall₂ language (front ++ back) properties) : ∃ before after,
      properties = before ++ after ∧ List.Forall₂ language front before ∧
        List.Forall₂ language back after := by
  induction front generalizing properties with
  | nil => exact ⟨[], properties, rfl, .nil, holds⟩
  | cons clause front induction =>
      cases holds with
      | cons first others =>
          obtain ⟨before, after, rfl, holds, holds'⟩ := induction others
          exact ⟨_ :: before, after, rfl, .cons first holds, holds'⟩

theorem Reordered.alike (clause : ∀ word property, language word property →
      PropertyClause word property)
    (prompts : ∀ word text, PropertyClause word (.prompt text) → language word (.prompt text))
    (reordered : Reordered clauses clauses')
    (holds : List.Forall₂ language clauses properties) : ∃ properties',
      List.Forall₂ language clauses' properties' ∧ SortedAlike properties properties' := by
  cases reordered with
  | permuted permuted kept =>
      obtain ⟨properties', holds', -⟩ := List.perm_comp_forall₂ permuted.symm holds
      refine ⟨properties', holds', .of_kept fun name => ?_⟩
      have own := filter_of_clauses (holds.imp clause) name
      have own' := filter_of_clauses (holds'.imp clause) name
      rw [kept name] at own
      exact properties_unique own own'
  | @prompt front middle back first extra text text' asked asked' =>
      obtain ⟨before, others, rfl, ahead, rest⟩ := clauses_append holds
      cases rest with
      | @cons _ property _ _ also rest =>
          obtain ⟨between, after, rfl, inner, behind⟩ := clauses_append rest
          obtain rfl := Reader.unique property_reader (clause _ _ also) asked
          refine ⟨_, ?_, .of_prompt before between after text text'⟩
          exact List.rel_append ahead (.cons also
            (List.rel_append inner (.cons (prompts _ _ asked') behind)))

end Language

end Grammar.Phrase

end KernelMenu

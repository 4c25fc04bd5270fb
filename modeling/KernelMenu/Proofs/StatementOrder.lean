import KernelMenu.Proofs.NodeOrder
import KernelMenu.Proofs.RowInduction
import KernelMenu.Proofs.Statement
import KernelMenu.Proofs.TreeReading

/-!
Nothing that a source says is lost, said twice or moved. Its statements from left to right are those
of the nodes of its tree, node by node; only guards of blocks and prompts after the first one of a
node leave no trace.
-/

namespace KernelMenu

open Grammar Phrase Outline

namespace Grammar.Phrase

/-- The tokens go on with a list of stretches, unless it begins with a block, and the statements go
on with what that list says. -/
structure Tells (word : List Token) (said : List Statement) : Prop where
  listing : ∀ rest statements, rest.head? ≠ some (.mark .openBrace) → Listing rest statements →
    Listing (word ++ rest) (said ++ statements)
  unopened : word.head? ≠ some (.mark .openBrace)

namespace Tells

variable {word word' : List Token} {said said' : List Statement}

theorem nil : Tells [] [] := ⟨fun _ _ _ listing => listing, nofun⟩

theorem head_append (tells : Tells word said) {rest : List Token}
    (unopened : rest.head? ≠ some (.mark .openBrace)) :
    (word ++ rest).head? ≠ some (.mark .openBrace) := by
  cases word with
  | nil => exact unopened
  | cons token word => exact tells.unopened

theorem append (first : Tells word said) (second : Tells word' said') :
    Tells (word ++ word') (said ++ said') where
  listing := by
    intro rest statements unopened listing
    rw [List.append_assoc, List.append_assoc]
    apply first.listing _ _ (second.head_append unopened)
    exact second.listing _ _ unopened listing
  unopened := first.head_append second.unopened

theorem of_stretch {part : Part} {statement : Option Statement}
    (stretch : Stretch part word statement) (guardless : part ≠ .guard)
    (unopened : word.head? ≠ some (.mark .openBrace)) : Tells word statement.toList where
  listing := fun _ _ free listing =>
    .cons stretch ⟨fun blocked => free blocked.2, fun same => absurd same guardless⟩ listing
  unopened := unopened

theorem body {part : Part} {statement : Option Statement} (stretch : Stretch part word statement)
    (free : ¬ BehindGuard word) (unopened : word.head? ≠ some (.mark .openBrace))
    (inner : Tells word' said) :
    Tells (word ++ .mark .openBrace :: word' ++ [.mark .closeBrace])
      (statement.toList ++ said) where
  listing := by
    intro rest statements head listing
    have single : ∀ sign : Mark, ¬ BehindGuard [Token.mark sign] := fun sign behind =>
      absurd behind.one_lt_length (Nat.lt_irrefl 1)
    have closed : Listing (.mark .closeBrace :: rest) statements :=
      .cons .closing ⟨fun blocked => single _ blocked.1, nofun⟩ listing
    have inside := inner.listing (.mark .closeBrace :: rest) statements nofun closed
    have opened : Listing (.mark .openBrace :: (word' ++ .mark .closeBrace :: rest))
        (said ++ statements) :=
      .cons .opening ⟨fun blocked => single _ blocked.1, nofun⟩ inside
    have whole := Listing.cons stretch ⟨fun blocked => free blocked.1, fun _ => rfl⟩ opened
    simpa only [List.append_assoc, List.cons_append, List.nil_append] using whole
  unopened := by
    obtain ⟨token, tail, rfl, -⟩ := stretch.first
    exact unopened

theorem source (tells : Tells word said) : Listing word said := by
  simpa using tells.listing [] [] nofun .nil

end Tells

theorem unopened_of_first {part : Part} {word : List Token} {said : Option Statement}
    (stretch : Stretch part word said) (braceless : part ≠ .brace) :
    word.head? ≠ some (.mark .openBrace) := by
  intro opened
  obtain ⟨token, tail, rfl, begins, -⟩ := stretch.first
  obtain rfl : token = .mark .openBrace := Option.some.inj opened
  exact braceless (Option.some.inj begins).symm

end Grammar.Phrase

namespace Draft

def statements : Head ConfigClauses MenuClauses ChoiceClauses → List Statement
  | .entry head => .header (.entry head.isMenu head.name head.type) ::
      (head.properties.map .clause ++ head.inherited.toList.map .inherited)
  | .menu head => .header (.menu head.title) ::
      head.dependsOn.toList.map fun condition => .clause (.dependsOn condition)
  | .choice head => .header (.choice (head.type = .boolean) head.isOptional) ::
      head.properties.map .clause

def said (drafts : List Draft) : List Statement := (drafts.flatMap heads).flatMap statements

theorem said_append (drafts drafts' : List Draft) :
    said (drafts ++ drafts') = said drafts ++ said drafts' := by
  simp only [said, List.flatMap_append]

theorem said_entry (head : ConfigClauses) (children : List Draft) :
    said [.entry head children] = statements (.entry head) ++ said children := by
  simp only [said, List.flatMap_cons, List.flatMap_nil, List.append_nil, heads_entry]

theorem said_menu (head : MenuClauses) (children : List Draft) :
    said [.menu head children] = statements (.menu head) ++ said children := by
  simp only [said, List.flatMap_cons, List.flatMap_nil, List.append_nil, heads_menu]

theorem said_choice (head : ChoiceClauses) (options : List (ConfigClauses × List Draft)) :
    said [.choice head options] = statements (.choice head) ++
      said (options.map fun option => .entry option.1 option.2) := by
  simp only [said, List.flatMap_cons, List.flatMap_nil, List.append_nil, heads_choice]

end Draft

namespace Grammar.Phrase

theorem tells_clause {word : List Token} {property : Property}
    (holds : PropertyClause word property) : Tells word [.clause property] :=
  .of_stretch (.clause holds) nofun (unopened_of_first (.clause holds) nofun)

theorem tells_clauses {word : List Token} {properties : List Property}
    (holds : Star PropertyClause word properties) : Tells word (properties.map .clause) := by
  induction holds with
  | nil => exact .nil
  | cons first _ induction => exact (tells_clause first).append induction

theorem property_of_choice {word : List Token} {property : Property}
    (holds : ChoiceClause word property) : PropertyClause word property := by
  cases holds with
  | prompt holds | default holds | depends holds => exact holds

theorem properties_of_choice {word : List Token} {properties : List Property}
    (holds : Star ChoiceClause word properties) : Star PropertyClause word properties := by
  induction holds with
  | nil => exact .nil
  | cons first _ induction => exact .cons (property_of_choice first) induction

theorem tells_dependency {word : List Token} {condition : Option Expr}
    (holds : Maybe Dependency word condition) :
    Tells word (condition.toList.map fun condition => .clause (.dependsOn condition)) := by
  cases holds with
  | none => exact .nil
  | some holds => exact tells_clause (.depends holds)

theorem tells_inherited {word : List Token} {condition : Option Expr}
    (holds : Maybe Inherited word condition) :
    Tells word (condition.toList.map .inherited) := by
  cases holds with
  | none => exact .nil
  | some holds =>
      exact .of_stretch (.inherited holds) nofun (unopened_of_first (.inherited holds) nofun)

theorem not_behind_guard_of_header {word : List Token} (within : Within headerKinds word) :
    ¬ BehindGuard word := fun behind => within.not_mem (by decide) behind.guard_mem

/-- The statements of a row are those of the nodes it stands for. -/
theorem tells_row {row : Row} {word : List Token} {drafts : List Draft}
    (stands : row.Stands word drafts) : Tells word (Draft.said drafts) := by
  induction stands using Row.Stands.induct with
  | nil row => exact .nil
  | append _ _ first second =>
      rw [Draft.said_append]
      exact first.append second
  | bare row head => exact .of_stretch (.entry head) nofun (unopened_of_first (.entry head) nofun)
  | body row head clauses last _ inner =>
      have front := (tells_clauses clauses).append (tells_inherited last)
      have whole := Tells.body (.entry head) (not_behind_guard_of_header (header_within head))
        (unopened_of_first (.entry head) nofun) (front.append inner)
      rw [Draft.said_entry]
      simpa [Draft.statements] using whole
  | menu title dependency _ inner =>
      have whole := Tells.body (.menu title) (not_behind_guard_of_header (menu_within title)) nofun
        ((tells_dependency dependency).append inner)
      rw [Draft.said_menu]
      simpa [Draft.statements] using whole
  | choice type isOptional clauses _ inner =>
      have whole := Tells.body (.choice type isOptional)
        (not_behind_guard_of_header (choice_within type isOptional)) nofun
        ((tells_clauses (properties_of_choice clauses)).append inner)
      rw [Draft.said_choice]
      simpa [Draft.statements] using whole
  | @block guard _ condition _ guarded _ inner =>
      -- The guard says nothing, so only what is in the block is left.
      have free : ¬ BehindGuard guard :=
        not_behind_guard ⟨[], condition, by rwa [List.append_nil]⟩
      exact Tells.body (.guard guarded) free (unopened_of_first (.guard guarded) nofun) inner

/-- A source is cut into the statements of its nodes. -/
theorem listing_of_source {words : List Token} {drafts : List Draft} (holds : Source words drafts) :
    Listing words (Draft.said drafts) :=
  (tells_row holds.stands).source

end Grammar.Phrase

end KernelMenu

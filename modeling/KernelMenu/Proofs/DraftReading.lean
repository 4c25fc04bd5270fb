import KernelMenu.Proofs.Phrase
import KernelMenu.Proofs.WellFormed

/-!
Drafts of tokens that a source can hold are well-formed: names, numbers and texts come from tokens
unchanged, and what the grammar builds around them keeps its form.
-/

namespace KernelMenu

def AllGenuine (words : List Token) : Prop := ∀ word ∈ words, word.Genuine

section Genuine

variable {word : Token} {words front back : List Token}

theorem AllGenuine.head (genuine : AllGenuine (word :: words)) : word.Genuine :=
  genuine word List.mem_cons_self

theorem AllGenuine.tail (genuine : AllGenuine (word :: words)) : AllGenuine words :=
  fun other member => genuine other (List.mem_cons_of_mem _ member)

theorem AllGenuine.left (genuine : AllGenuine (front ++ back)) : AllGenuine front :=
  fun other member => genuine other (List.mem_append_left back member)

theorem AllGenuine.right (genuine : AllGenuine (front ++ back)) : AllGenuine back :=
  fun other member => genuine other (List.mem_append_right front member)

end Genuine

def Property.WellFormed : Property → Prop
  | .prompt text => text.WellFormed IsText
  | .dependsOn condition => condition.WellFormed
  | .default value => value.WellFormed Expr.WellFormed
  | .range bounds => bounds.WellFormed Bounds.WellFormed
  | .select target => target.WellFormed PlainName
  | .env name => name.WellFormed PlainName

structure ConfigClauses.WellFormed (draft : ConfigClauses) : Prop where
  name : PlainName draft.name
  properties : ∀ property ∈ draft.properties, property.WellFormed
  inherited : ∀ condition ∈ draft.inherited, condition.WellFormed

structure MenuClauses.WellFormed (draft : MenuClauses) : Prop where
  title : IsText draft.title
  dependsOn : ∀ condition ∈ draft.dependsOn, condition.WellFormed

def ChoiceClauses.WellFormed (draft : ChoiceClauses) : Prop :=
  ∀ property ∈ draft.properties, property.WellFormed

def Draft.WellFormed : Draft → Prop :=
  Outline.Each ConfigClauses.WellFormed MenuClauses.WellFormed ChoiceClauses.WellFormed

structure EntryWellFormed (entry : ConfigClauses × List Draft) : Prop where
  head : entry.1.WellFormed
  children : ∀ child ∈ entry.2, child.WellFormed

theorem Expr.WellFormed.conjoin {left right : Expr} (first : left.WellFormed)
    (second : right.WellFormed) : (left.conjoin right).WellFormed := by
  unfold Expr.conjoin
  split
  · exact first
  · split
    · exact second
    · exact .and first second

theorem Expr.WellFormed.getD {condition : Option Expr}
    (wellFormed : ∀ expr ∈ condition, expr.WellFormed) : (condition.getD .yes).WellFormed := by
  cases condition with
  | none => exact .yes
  | some expr => exact wellFormed expr rfl

theorem Expr.WellFormed.foldl {combine : Expr → Expr → Expr} {others : List Expr} {first : Expr}
    (combined : ∀ left right : Expr, left.WellFormed → right.WellFormed →
      (combine left right).WellFormed)
    (start : first.WellFormed) (wellFormed : ∀ expr ∈ others, expr.WellFormed) :
    (others.foldl combine first).WellFormed := by
  induction others generalizing first with
  | nil => exact start
  | cons other others induction =>
      obtain ⟨head, tail⟩ := List.forall_mem_cons.1 wellFormed
      exact induction (combined _ _ start head) tail

namespace Grammar.Phrase

variable {word : List Token}

theorem value_well_formed {value : Expr} (holds : Value word value) (genuine : AllGenuine word) :
    value.WellFormed ∧ value.isLeaf = true := by
  cases holds with
  | yes => exact ⟨.yes, rfl⟩
  | mod => exact ⟨.mod, rfl⟩
  | no => exact ⟨.no, rfl⟩
  | ident name other => exact ⟨.id genuine.head other, rfl⟩
  | int digits => exact ⟨.int genuine.head, rfl⟩
  | hex digits => exact ⟨.hex genuine.head, rfl⟩
  | text body => exact ⟨.literal genuine.head, rfl⟩

theorem expression_well_formed {value : Expr} (holds : Expression word value)
    (genuine : AllGenuine word) : value.WellFormed := by
  -- The levels of binding are derived together, and a row of operands is well-formed in each.
  refine @Expression.rec (fun word value _ => AllGenuine word → value.WellFormed)
    (fun word value _ => AllGenuine word → value.WellFormed)
    (fun word value _ => AllGenuine word → value.WellFormed)
    (fun word value _ => AllGenuine word → value.WellFormed)
    (fun word value _ => AllGenuine word → value.WellFormed)
    (fun word value _ => AllGenuine word → value.WellFormed)
    (fun word values _ => AllGenuine word → ∀ value ∈ values, value.WellFormed)
    (fun word values _ => AllGenuine word → ∀ value ∈ values, value.WellFormed)
    ?_ ?_ ?_ ?_ ?_ ?_ ?_ ?_ ?_ ?_ ?_ ?_ ?_ ?_ word value holds genuine
  · intro _ _ _ _ _ _ first others genuine
    exact .foldl (fun _ _ => .or) (first genuine.left) (others genuine.right)
  · exact fun _ operand genuine => operand genuine.tail
  · intro _ _ _ _ _ _ first others genuine
    exact .foldl (fun _ _ => .and) (first genuine.left) (others genuine.right)
  · exact fun _ operand genuine => operand genuine.tail
  · exact fun _ operand => operand
  · exact fun _ _ left right genuine => .eq (left genuine.left) (right genuine.right.tail)
  · exact fun _ _ left right genuine => .ne (left genuine.left) (right genuine.right.tail)
  · exact fun _ operand genuine => .not (operand genuine.tail)
  · exact fun _ inner genuine => inner genuine.left.tail
  · exact fun holds genuine => (value_well_formed holds genuine).1
  · exact fun _ => nofun
  · intro _ _ _ _ _ _ first others genuine
    exact List.forall_mem_cons.2 ⟨first genuine.left, others genuine.right⟩
  · exact fun _ => nofun
  · intro _ _ _ _ _ _ first others genuine
    exact List.forall_mem_cons.2 ⟨first genuine.left, others genuine.right⟩

theorem bracketed_well_formed {value : Expr} (holds : Bracketed word value)
    (genuine : AllGenuine word) : value.WellFormed := by
  cases holds with
  | intro inner =>
      cases inner with
      | none => exact .yes
      | some inner => exact expression_well_formed inner genuine.left.tail

theorem condition_well_formed {condition : Option Expr} (holds : Maybe Guard word condition)
    (genuine : AllGenuine word) : (condition.getD .yes).WellFormed := by
  cases holds with
  | none => exact .yes
  | some holds =>
      cases holds with
      | intro bracketed => exact bracketed_well_formed bracketed genuine.tail

theorem dependency_well_formed {condition : Expr} (holds : Dependency word condition)
    (genuine : AllGenuine word) : condition.WellFormed := by
  cases holds with
  | intro bracketed guard =>
      have payload := bracketed_well_formed bracketed genuine.left.tail.tail
      exact payload.conjoin (condition_well_formed guard genuine.right)

theorem property_well_formed {property : Property} (holds : PropertyClause word property)
    (genuine : AllGenuine word) : property.WellFormed := by
  cases holds with
  | prompt text guard =>
      exact ⟨genuine.tail.head, condition_well_formed guard genuine.tail.tail⟩
  | depends dependency => exact dependency_well_formed dependency genuine
  | default bracketed guard =>
      exact ⟨bracketed_well_formed bracketed genuine.left.tail,
        condition_well_formed guard genuine.right⟩
  | range low high guard =>
      have ends := genuine.left
      have least := value_well_formed low ends.left.tail.tail
      have most := value_well_formed high ends.right
      exact ⟨⟨least.1, most.1, least.2, most.2⟩, condition_well_formed guard genuine.right.tail⟩
  | select target guard =>
      exact ⟨genuine.tail.head, condition_well_formed guard genuine.tail.tail⟩
  | env name guard =>
      exact ⟨genuine.tail.head, condition_well_formed guard genuine.tail.tail⟩

theorem choice_clause_well_formed {property : Property} (holds : ChoiceClause word property)
    (genuine : AllGenuine word) : property.WellFormed := by
  cases holds with
  | prompt holds | default holds | depends holds => exact property_well_formed holds genuine

theorem star_well_formed {Value : Type} {language : Language Value} {valid : Value → Prop}
    {values : List Value} (each : ∀ word value, language word value → AllGenuine word → valid value)
    (holds : Star language word values) (genuine : AllGenuine word) :
    ∀ value ∈ values, valid value := by
  induction holds with
  | nil => exact nofun
  | cons first _ induction =>
      exact List.forall_mem_cons.2 ⟨each _ _ first genuine.left, induction genuine.right⟩

theorem maybe_well_formed {Value : Type} {language : Language Value} {valid : Value → Prop}
    {value : Option Value}
    (each : ∀ word value, language word value → AllGenuine word → valid value)
    (holds : Maybe language word value) (genuine : AllGenuine word) :
    ∀ found ∈ value, valid found := by
  cases holds with
  | none => exact nofun
  | some holds =>
      intro found member
      obtain rfl := Option.some.inj member
      exact each _ _ holds genuine

theorem header_well_formed {isMenu : Bool} {name : String} {type : ValueType}
    (holds : Header word isMenu name type) (genuine : AllGenuine word) : PlainName name := by
  cases holds with
  | config | menuconfig => exact genuine.tail.head

theorem inherited_well_formed {condition : Expr} (holds : Inherited word condition)
    (genuine : AllGenuine word) : condition.WellFormed := by
  cases holds with
  | intro bracketed => exact bracketed_well_formed bracketed genuine.tail

theorem symbol_well_formed {drafts : List Draft} (holds : Symbol word drafts)
    (genuine : AllGenuine word) : ∀ draft ∈ drafts, draft.WellFormed := by
  refine @Symbol.rec (fun word entry _ => AllGenuine word → EntryWellFormed entry)
    (fun word drafts _ => AllGenuine word → ∀ draft ∈ drafts, draft.WellFormed)
    (fun word parts _ => AllGenuine word → ∀ draft ∈ parts.flatten, draft.WellFormed)
    (fun word entries _ => AllGenuine word → ∀ entry ∈ entries, EntryWellFormed entry)
    ?_ ?_ ?_ ?_ ?_ ?_ ?_ ?_ ?_ ?_ word drafts holds genuine
  · intro header isMenu name type holds genuine
    exact ⟨⟨header_well_formed holds genuine, nofun, nofun⟩, nofun⟩
  · intro header clauses last symbols isMenu name type properties inherited children header'
      clauses' last' _ below genuine
    have front := genuine.left.left
    exact ⟨⟨header_well_formed header' front.left.left,
      star_well_formed (fun _ _ => property_well_formed) clauses' front.left.right.tail,
      maybe_well_formed (fun _ _ => inherited_well_formed) last' front.right⟩,
      below genuine.left.right⟩
  · intro title depends symbols condition children depends' _ below genuine
    have front := genuine.left.left
    exact List.forall_mem_singleton.2 (.menu ⟨front.tail.head,
      maybe_well_formed (fun _ _ => dependency_well_formed) depends' front.tail.tail.tail⟩
      (below genuine.left.right))
  · intro word head children _ entry genuine
    have wellFormed := entry genuine
    exact List.forall_mem_singleton.2 (.entry wellFormed.head wellFormed.children)
  · intro type isOptional clauses entries properties options clauses' _ below genuine
    have wellFormed := below genuine.left.right
    exact List.forall_mem_singleton.2 (.choice
      (star_well_formed (fun _ _ => choice_clause_well_formed) clauses'
        genuine.left.left.right.tail)
      (fun option member => (wellFormed option member).head)
      (fun option member => (wellFormed option member).children))
  · exact fun _ _ below genuine => below genuine.left.right.tail
  · exact fun _ => nofun
  · intro word words first others _ _ first' others' genuine draft member
    rw [List.flatten_cons] at member
    exact (List.mem_append.1 member).elim (first' genuine.left draft) (others' genuine.right draft)
  · exact fun _ => nofun
  · exact fun _ _ first others genuine =>
      List.forall_mem_cons.2 ⟨first genuine.left, others genuine.right⟩

theorem source_well_formed {drafts : List Draft} (holds : Source word drafts)
    (genuine : AllGenuine word) : ∀ draft ∈ drafts, draft.WellFormed := by
  obtain @⟨_, parts, holds⟩ := holds
  have each : ∀ part ∈ parts, ∀ draft ∈ part, draft.WellFormed :=
    star_well_formed (fun _ _ => symbol_well_formed) holds genuine
  intro draft member
  obtain ⟨part, inside, member⟩ := List.mem_flatten.1 member
  exact each part inside draft member

end Grammar.Phrase

end KernelMenu

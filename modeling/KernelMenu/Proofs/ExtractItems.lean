import KernelMenu.Proofs.DumpReading
import KernelMenu.Proofs.ExtractRows

/-!
The rows of trees that can be written down. The line of such a row has no line feed in it, and no
condition that always holds.
-/

namespace KernelMenu

open Piece Extract Outline

section Single

theorem word_single {word : List Char} (wordy : ∀ char ∈ word, isWordChar char = true) :
    '\n' ∉ word :=
  fun member => absurd (wordy _ member) (by decide)

theorem SignedDigits.single {digits : List Char} (signed : SignedDigits digits) :
    '\n' ∉ digits := by
  have plain : ∀ {digits : List Char}, isDecimalWord digits = true → '\n' ∉ digits :=
    fun decimal => word_single fun char member =>
      word_char_of_digit ((digits_of_decimal decimal).2 char member)
  cases signed with
  | plain decimal => exact plain decimal
  | negative decimal => exact List.not_mem_cons_of_ne_of_not_mem (by decide) (plain decimal)

theorem TextUnits.single {text : List Char} (units : TextUnits text) : '\n' ∉ text := by
  have other : ∀ {test : Char → Bool} {char : Char}, test char = true → test '\n' = false →
      '\n' ≠ char := by
    rintro test char passes fails rfl
    exact absurd passes (by simp [fails])
  induction units with
  | nil => exact List.not_mem_nil
  | plain plain _ induction =>
      exact List.not_mem_cons_of_ne_of_not_mem (other plain (by decide)) induction
  | escape escapable _ induction =>
      exact List.not_mem_cons_of_ne_of_not_mem (by decide)
        (List.not_mem_cons_of_ne_of_not_mem (other escapable (by decide)) induction)

theorem Token.Genuine.single {word : Token} (genuine : word.Genuine) :
    '\n' ∉ word.spelling.toList := by
  cases word with
  | keyword word => exact word_single (keyword_wordy word).2
  | mark sign => cases sign <;> decide
  | hex digits => exact word_single (word_chars_of_hex genuine)
  | ident name => exact word_single genuine.wordy
  | int digits => exact SignedDigits.single genuine
  | text body =>
      have quotes : '\n' ∉ "\"".toList := by decide
      rw [Token.spelling, String.toList_append, String.toList_append]
      exact List.not_mem_append (List.not_mem_append quotes (TextUnits.single genuine)) quotes

section Pieces

variable {front back : List Piece}

theorem chars_single_append (first : '\n' ∉ chars front) (second : '\n' ∉ chars back) :
    '\n' ∉ chars (front ++ back) := by
  rw [chars_append]
  exact List.not_mem_append first second

theorem token_single {word : Token} (genuine : word.Genuine) : '\n' ∉ chars [.token word] := by
  rw [chars, List.flatMap_singleton]
  exact genuine.single

theorem enclose_single (needed : Bool) (single : '\n' ∉ chars front) :
    '\n' ∉ chars (Expr.pieces.enclose needed front) := by
  cases needed with
  | false => exact single
  | true =>
      have opening := token_single (Token.genuine_mark .openParen)
      have closing := token_single (Token.genuine_mark .closeParen)
      exact chars_single_append (chars_single_append opening single) closing

end Pieces

theorem Expr.text_single {expr : Expr} (wellFormed : expr.WellFormed) :
    '\n' ∉ expr.text.toList := by
  rw [Expr.text, render_to_list]
  have sign : ∀ sign : Mark, '\n' ∉ chars [.token (.mark sign)] :=
    fun sign => token_single (Token.genuine_mark sign)
  have spaced : ∀ sign : Mark, '\n' ∉ chars (pieces.spaced sign) := by
    intro sign
    cases sign <;> decide
  induction wellFormed with
  | yes | mod | no => decide
  | id plain _ => exact token_single plain
  | literal isText => exact token_single isText
  | int signed => exact token_single signed
  | hex shaped => exact token_single shaped
  | not _ operand => exact chars_single_append (sign .not) (enclose_single _ operand)
  | and _ _ left right =>
      exact chars_single_append (chars_single_append (enclose_single _ left) (spaced .and))
        (enclose_single _ right)
  | or _ _ left right =>
      exact chars_single_append (chars_single_append (enclose_single _ left) (spaced .or))
        (enclose_single _ right)
  | eq _ _ left right =>
      exact chars_single_append (chars_single_append (enclose_single _ left) (sign .eq))
        (enclose_single _ right)
  | ne _ _ left right =>
      exact chars_single_append (chars_single_append (enclose_single _ left) (sign .ne))
        (enclose_single _ right)

end Single

section Items

def NodeHeader.WellFormed : NodeHeader → Prop
  | .entry _ name _ => PlainName name
  | .menu title => IsText title
  | .choice _ _ => True

/-- What is printed for a tree that can be written down. An inherited condition that always holds is
left out. -/
def Extract.Item.WellFormed : Item → Prop
  | .bare _ name _ => PlainName name
  | .opening header => header.WellFormed
  | .clause property => property.WellFormed
  | .inherited condition => condition.WellFormed ∧ condition.isYes = false
  | .closing => True

theorem NodeHeader.text_single {header : NodeHeader} (wellFormed : header.WellFormed) :
    '\n' ∉ header.text.toList := by
  cases header with
  | entry isMenu name type =>
      have inside : '\n' ∉ name.toList := word_single (PlainName.wordy wellFormed)
      cases isMenu <;> cases type <;>
        simp [NodeHeader.text, inside, ValueType.text, ValueType.keyword, Keyword.spelling]
  | menu title =>
      have inside : '\n' ∉ title.toList := TextUnits.single wellFormed
      simp [NodeHeader.text, inside]
  | choice isBoolean isOptional => cases isBoolean <;> cases isOptional <;> decide

theorem Property.body_single {property : Property} (wellFormed : property.WellFormed) :
    '\n' ∉ property.body.toList := by
  cases property with
  | prompt text =>
      have inside : '\n' ∉ text.payload.toList := TextUnits.single wellFormed.payload
      simp [Property.body, inside]
  | dependsOn condition => simp [Property.body, Expr.text_single wellFormed]
  | default value => simp [Property.body, Expr.text_single wellFormed.payload]
  | range bounds =>
      simp [Property.body, Expr.text_single wellFormed.payload.low,
        Expr.text_single wellFormed.payload.high]
  | select target => simp [Property.body, word_single wellFormed.payload.wordy]
  | env name => simp [Property.body, word_single wellFormed.payload.wordy]

theorem Expr.unless_yes_well_formed {expr : Expr} (wellFormed : expr.WellFormed) :
    ∀ condition ∈ expr.unlessYes, condition.WellFormed ∧ condition.isYes = false := by
  intro condition found
  rw [Expr.unlessYes] at found
  split at found
  case isTrue => exact absurd found (Option.not_mem_none condition)
  case isFalse other =>
    obtain rfl := Option.some.inj found
    exact ⟨wellFormed, Bool.eq_false_iff.2 other⟩

theorem Property.guard_well_formed {property : Property} (wellFormed : property.WellFormed) :
    ∀ guard ∈ property.guard?, guard.WellFormed ∧ guard.isYes = false := by
  cases property with
  | dependsOn condition => exact nofun
  | _ => exact Expr.unless_yes_well_formed wellFormed.condition

theorem Expr.text_ne_yes {expr : Expr} (wellFormed : expr.WellFormed) (other : expr.isYes = false) :
    expr.text ≠ "y" := by
  intro same
  have always := Expr.text_injective wellFormed .yes
      (same.trans (show "y" = Expr.yes.text from rfl))
  rw [always] at other
  exact nomatch other

namespace Extract.Item

theorem guard_text_single {guard : Option Expr}
    (wellFormed : ∀ condition ∈ guard, condition.WellFormed) :
    '\n' ∉ (guardText guard).toList := by
  cases guard with
  | none => decide
  | some condition => simp [guardText, Expr.text_single (wellFormed condition rfl)]

theorem WellFormed.text_single {item : Item} (wellFormed : item.WellFormed) :
    '\n' ∉ item.text.toList := by
  cases item with
  | bare isMenu name type =>
      exact @NodeHeader.text_single (.entry isMenu name type) wellFormed
  | opening header =>
      rw [text, String.toList_append]
      exact List.not_mem_append (NodeHeader.text_single wellFormed) (by decide)
  | clause property =>
      rw [text, String.toList_append]
      exact List.not_mem_append (Property.body_single wellFormed)
        (guard_text_single fun guard found => (Property.guard_well_formed wellFormed guard found).1)
  | inherited condition => simp [text, Expr.text_single wellFormed.1]
  | closing => decide

def condition? : Item → Option Expr
  | clause property => property.guard?
  | inherited condition => some condition
  | bare _ _ _ | opening _ | closing => none

theorem WellFormed.condition_ne_yes {item : Item} (wellFormed : item.WellFormed) :
    ∀ condition ∈ item.condition?, condition.text ≠ "y" := by
  intro condition found
  cases item with
  | clause property =>
      obtain ⟨guard, other⟩ := Property.guard_well_formed wellFormed condition found
      exact Expr.text_ne_yes guard other
  | inherited expr =>
      obtain rfl := Option.some.inj found
      exact Expr.text_ne_yes wellFormed.1 wellFormed.2
  | bare isMenu name type | opening header | closing => exact nomatch found

end Extract.Item

end Items

section Nodes

def Node.WellFormed : Node → Prop
  | .entry config => config.WellFormed
  | .menu title => title.WellFormed IsText
  | .choice head => head.WellFormed

theorem Choice.WellFormed.clauses {choice : Choice} (wellFormed : choice.WellFormed) :
    ∀ property ∈ choice.clauses.properties, property.WellFormed := by
  intro property member
  simp only [Choice.clauses, List.cons_append, List.mem_cons, List.mem_append,
    List.mem_map] at member
  rcases member with rfl | ⟨value, inside, rfl⟩ | ⟨condition, inside, rfl⟩
  · exact wellFormed.prompt
  · exact wellFormed.defaults value inside
  · exact wellFormed.dependsOn condition inside

theorem Node.WellFormed.header {node : Node} (wellFormed : node.WellFormed) :
    node.header.WellFormed := by
  cases node with
  | entry config => exact Config.WellFormed.name wellFormed
  | menu title => exact Guarded.WellFormed.payload wellFormed
  | choice head => trivial

theorem Node.WellFormed.items {node : Node} (wellFormed : node.WellFormed) :
    ∀ item ∈ node.items, item.WellFormed := by
  cases node with
  | entry config =>
      have inherited := Expr.unless_yes_well_formed (Config.WellFormed.inherited wellFormed)
      refine List.forall_mem_append.2 ⟨List.forall_mem_map.2 ?_, List.forall_mem_map.2 ?_⟩
      · exact Config.WellFormed.clauses wellFormed
      · exact fun condition member => inherited condition (Option.mem_toList.1 member)
  | menu title =>
      have dependency := Expr.unless_yes_well_formed (Guarded.WellFormed.condition wellFormed)
      refine List.forall_mem_map.2 fun condition member => ?_
      exact (dependency condition (Option.mem_toList.1 member)).1
  | choice head => exact List.forall_mem_map.2 (Choice.WellFormed.clauses wellFormed)

theorem Symbol.WellFormed.head {symbol : Symbol} (wellFormed : symbol.WellFormed) :
    Node.WellFormed symbol.head := by
  cases wellFormed with
  | entry head _ => exact head
  | menu head _ => exact head
  | choice head _ _ => exact head

theorem Symbol.WellFormed.below {symbol : Symbol} (wellFormed : symbol.WellFormed) :
    ∀ child ∈ symbol.nodesBelow, Symbol.WellFormed child := by
  cases wellFormed with
  | entry _ children => exact children
  | menu _ children => exact children
  | choice _ heads children =>
      refine List.forall_mem_map.2 fun option member => ?_
      exact .entry (heads option member) (children option member)

theorem Symbol.rows_well_formed (symbol : Symbol) : symbol.WellFormed → ∀ depth,
    ∀ row ∈ symbol.rows depth, row.item.WellFormed := by
  induction symbol using Outline.induct_below with
  | step symbol induction =>
      intro wellFormed depth
      have header := wellFormed.head.header
      rcases Symbol.rows_cases symbol with ⟨config, rfl, -, rows⟩ | ⟨-, rows⟩
      · rw [rows]
        exact List.forall_mem_singleton.2 header
      · have items := wellFormed.head.items
        rw [rows, blockRows]
        refine List.forall_mem_cons.2 ⟨header, List.forall_mem_append.2
          ⟨List.forall_mem_map.2 items, List.forall_mem_append.2 ⟨?_, ?_⟩⟩⟩
        · intro row member
          obtain ⟨rows, inside, member⟩ := List.mem_flatMap.1 member
          obtain ⟨child, below, rfl⟩ := List.mem_map.1 inside
          exact induction child below (wellFormed.below child below) (depth + 1) row member
        · exact List.forall_mem_singleton.2 trivial

end Nodes

end KernelMenu

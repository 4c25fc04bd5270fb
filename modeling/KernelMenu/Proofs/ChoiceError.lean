import KernelMenu.Proofs.ChoicePlace
import KernelMenu.Proofs.ErrorPlace

/-!
Choices without a prompt. They count after lexical errors and after errors of the grammar; then a
source is in error just if one of its choice blocks, at whatever depth, has no prompt, and the error
stands at the keyword of the first one.
-/

namespace KernelMenu

open Grammar Phrase Outline

/-- If a value fails just when a part of it is at fault, a row fails just when a part of a value in
it is. -/
theorem map_m_eq_none_iff {Source Target Part : Type} {change : Source → Option Target}
    {parts : Source → List Part} {faulty : Part → Prop} {values : List Source}
    (each : ∀ value ∈ values, change value = none ↔ ∃ part ∈ parts value, faulty part) :
    values.mapM change = none ↔ ∃ part ∈ values.flatMap parts, faulty part := by
  induction values with
  | nil => simp
  | cons value values induction =>
      have own := each value List.mem_cons_self
      have others := induction fun other member => each other (List.mem_cons_of_mem _ member)
      simp only [List.flatMap_cons, List.mem_append, or_and_right, exists_or]
      rw [List.mapM_cons, ← own, ← others]
      cases change value with
      | none => simp
      | some result => cases values.mapM change <;> simp

namespace Draft

theorem sorted_eq_none_iff {head : ChoiceClauses} : head.sorted? = none ↔ head.prompt? = none := by
  rw [ChoiceClauses.sorted?]
  cases head.prompt? <;> simp

theorem below_eq_none_iff {drafts : List Draft}
    (each : ∀ draft ∈ drafts, symbol? draft = none ↔ ∃ head ∈ draft.choices, head.prompt? = none) :
    below drafts = none ↔ ∃ head ∈ drafts.flatMap choices, head.prompt? = none := by
  rw [below, List.mapM_map]
  exact map_m_eq_none_iff each

/-- A draft has no symbol just if one of its choices has no prompt. -/
theorem symbol_eq_none_iff (draft : Draft) :
    symbol? draft = none ↔ ∃ head ∈ draft.choices, head.prompt? = none := by
  induction draft using Outline.induct with
  | atEntry head children induction =>
      rw [symbol_entry, Option.map_eq_none_iff, below_eq_none_iff induction, choices_entry]
  | atMenu head children induction =>
      rw [symbol_menu, Option.map_eq_none_iff, below_eq_none_iff induction, choices_menu]
  | atChoice head options induction =>
      have inner : (options.mapM fun option => (below option.2).map fun children =>
          (option.1.sorted, children)) = none ↔
          ∃ head ∈ options.flatMap fun option => option.2.flatMap choices,
            head.prompt? = none := by
        apply map_m_eq_none_iff
        intro option member
        rw [Option.map_eq_none_iff, below_eq_none_iff (induction option member)]
      rw [symbol_choice, choices_choice, List.exists_mem_cons_iff, ← sorted_eq_none_iff,
        List.flatMap_map]
      simp only [choices_entry]
      rw [← inner]
      cases head.sorted? <;> simp

/-- The symbols of drafts are missing just if there is a choice without a prompt, and then the
number of the first one is told. -/
theorem symbols_eq_error_iff {drafts : List Draft} {number : Nat} :
    Draft.symbols drafts = .error number ↔ promptlessChoice? drafts = some number := by
  have missing : drafts.mapM symbol? = none ↔
      ∃ head ∈ drafts.flatMap choices, head.prompt? = none :=
    map_m_eq_none_iff fun draft _ => draft.symbol_eq_none_iff
  have located : (promptlessChoice? drafts).isSome = true ↔
      ∃ head ∈ drafts.flatMap choices, head.prompt? = none := by
    rw [promptlessChoice?, List.findIdx?_isSome]
    simp only [List.any_eq_true, Option.isNone_iff_eq_none]
  rw [Draft.symbols]
  cases outcome : drafts.mapM symbol? with
  | none =>
      obtain ⟨index, found⟩ := Option.isSome_iff_exists.1 (located.2 (missing.1 outcome))
      simp [found]
  | some symbols =>
      have none : promptlessChoice? drafts = none := by
        rw [← Option.not_isSome_iff_eq_none, located, ← missing, outcome]
        exact Option.some_ne_none symbols
      simp [none]

end Draft

namespace Grammar.Phrase

/-- At the token with this number a choice block without a prompt begins. -/
def PromptlessAt (words : List Token) (index : Nat) : Prop :=
  ∃ front properties, ChoiceBlock words front properties ∧ front.length = index ∧
    ∀ text, Property.prompt text ∉ properties

theorem prompt_eq_none_iff {head : ChoiceClauses} :
    head.prompt? = none ↔ ∀ text, Property.prompt text ∉ head.properties := by
  rw [ChoiceClauses.prompt?, List.findSome?_eq_none_iff]
  constructor
  · exact fun none text inside => nomatch none _ inside
  · intro plain property inside
    cases property with
    | prompt text => exact absurd inside (plain text)
    | dependsOn | default | range | select | env => rfl

theorem ChoiceBlock.split {words front : List Token} {properties : List Property}
    (block : ChoiceBlock words front properties) :
    ∃ rest, words = front ++ .keyword .choice :: rest := by
  cases block with
  | intro type isOptional => exact ⟨_, List.append_assoc _ _ _⟩

/-- Of two blocks the one with fewer choices in front of it does not begin later. -/
theorem length_le_of_choices_in {front front' rest rest' : List Token}
    (same : front ++ .keyword .choice :: rest = front' ++ .keyword .choice :: rest')
    (fewer : choicesIn front ≤ choicesIn front') : front.length ≤ front'.length := by
  rcases append_compare same with ⟨token, spill, rfl, -⟩ | ⟨spill, rfl, split⟩
  · rw [List.length_append]
    exact Nat.le_add_right _ _
  · cases spill with
    | nil => rw [List.append_nil]
    | cons token spill =>
        -- The keyword of the other block is one more choice in front of this one.
        obtain ⟨rfl, -⟩ := List.cons.inj split
        rw [choices_in_append] at fewer
        have one : 0 < choicesIn (.keyword .choice :: spill) :=
          List.count_pos_iff.2 List.mem_cons_self
        omega

/-- The choice that is told is the first one without a prompt. -/
theorem first_promptless {words : List Token} {drafts : List Draft} (holds : Source words drafts)
    {number : Nat} (found : Draft.promptlessChoice? drafts = some number) :
    ∃ front rest, words = front ++ .keyword .choice :: rest ∧ choicesIn front = number ∧
      PromptlessAt words front.length ∧
      ∀ other, PromptlessAt words other → front.length ≤ other := by
  obtain ⟨bound, promptless, first⟩ := List.findIdx?_eq_some_iff_getElem.1 found
  obtain ⟨front, block, count⟩ := choice_blocks holds (List.getElem?_eq_getElem bound)
  obtain ⟨rest, split⟩ := block.split
  have plain := prompt_eq_none_iff.1 (Option.isNone_iff_eq_none.1 promptless)
  refine ⟨front, rest, split, count, ⟨front, _, block, rfl, plain⟩, ?_⟩
  rintro other ⟨front', properties, block', rfl, plain'⟩
  obtain ⟨rest', split'⟩ := block'.split
  apply length_le_of_choices_in (split.symm.trans split')
  obtain ⟨head, listed, rfl⟩ := block'.listed holds
  have none := prompt_eq_none_iff.2 plain'
  rw [count]
  apply Nat.le_of_not_lt
  intro earlier
  obtain ⟨bound', same⟩ := List.getElem?_eq_some_iff.1 listed
  have prompted := first _ earlier
  rw [same, none] at prompted
  exact prompted rfl

end Grammar.Phrase

/-- Among the lexemes of choices, that of a choice has the number of the choices in front of it. -/
theorem Lexeme.start_of_choice (source : String) {lexemes : List Lexeme} {front rest : List Token}
    (split : lexemes.map Lexeme.token = front ++ .keyword .choice :: rest) :
    ∃ lexeme, lexemes[front.length]? = some lexeme ∧ lexeme.token = .keyword .choice ∧
      startOf source (lexemes.filter fun lexeme => lexeme.token = .keyword .choice)
        (choicesIn front) = lexeme.start := by
  obtain ⟨before, after, rfl, rfl, others⟩ := List.map_eq_append_iff.1 split
  obtain ⟨lexeme, behind, rfl, isChoice, -⟩ := List.map_eq_cons_iff.1 others
  have count : choicesIn (before.map Lexeme.token) =
      (before.filter fun lexeme => lexeme.token = .keyword .choice).length := by
    rw [choicesIn, List.count, List.countP_map, ← List.countP_eq_length_filter]
    rfl
  refine ⟨lexeme, by simp, isChoice, ?_⟩
  rw [startOf, List.filter_append, count, List.getElem?_append_right (Nat.le_refl _), Nat.sub_self,
    List.filter_cons_of_pos (by simpa using isChoice)]
  rfl

namespace Root

variable {source : String} {lexemes : List Lexeme}

theorem parse_of_accepted (scanned : Lexeme.ofSource source = .ok lexemes) {drafts : List Draft}
    (holds : Source (lexemes.map Lexeme.token) drafts) :
    parse source = match Draft.symbols drafts with
      | .error number => .error (.ofPromptlessChoice source lexemes number)
      | .ok symbols => .ok (.ofChildren symbols) := by
  have result := source_read (lexemes.map Lexeme.token)
  rw [parse, scanned]
  dsimp only
  generalize Grammar.source (lexemes.map Lexeme.token) = outcome at result
  cases result with
  | rejected none => exact absurd holds (none drafts)
  | accepted _ only =>
      obtain rfl := only drafts holds
      rfl

/-- The error of a choice without a prompt stands at the keyword of the first one. -/
theorem promptless_error (scanned : Lexeme.ofSource source = .ok lexemes)
    (accepted : Accepts (lexemes.map Lexeme.token)) {error : ParseError}
    (failed : parse source = .error error) : ∃ index lexeme,
      PromptlessAt (lexemes.map Lexeme.token) index ∧
      (∀ other, PromptlessAt (lexemes.map Lexeme.token) other → index ≤ other) ∧
      lexemes[index]? = some lexeme ∧ lexeme.token = .keyword .choice ∧
      error.position.offset = lexeme.start ∧ error.fault = .promptlessChoice := by
  obtain ⟨drafts, holds⟩ := accepts_iff.1 accepted
  rw [parse_of_accepted scanned holds] at failed
  cases symbols : Draft.symbols drafts with
  | ok =>
      rw [symbols] at failed
      exact nomatch failed
  | error number =>
      rw [symbols] at failed
      obtain rfl := Except.error.inj failed
      obtain ⟨front, rest, split, rfl, promptless, first⟩ :=
        first_promptless holds (Draft.symbols_eq_error_iff.1 symbols)
      obtain ⟨lexeme, found, isChoice, start⟩ := Lexeme.start_of_choice source split
      refine ⟨front.length, lexeme, promptless, first, found, isChoice, ?_, rfl⟩
      have less := Lexeme.start_lt_size scanned found
      simp only [ParseError.ofPromptlessChoice, Position.ofOffset, start]
      omega

end Root

end KernelMenu

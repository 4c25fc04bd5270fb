import KernelMenu.Proofs.DraftReading
import KernelMenu.Proofs.SourceCutting
import KernelMenu.Proofs.TreePrinting

/-!
Every tree that is read can be written down: sorting the clauses of a draft keeps their form. So the
canonical text of a tree that was read gives the tree again, and itself when it is printed once
more.
-/

namespace KernelMenu

open Grammar Piece Extract

section Sorting

variable {Value : Type}

theorem clauses_of_kind {kind? : Property → Option Value} {valid : Value → Prop}
    (each : ∀ property : Property, property.WellFormed → ∀ value ∈ kind? property, valid value)
    {properties : List Property} (wellFormed : ∀ property ∈ properties, property.WellFormed) :
    ∀ value ∈ properties.filterMap kind?, valid value := by
  intro value member
  obtain ⟨property, inside, found⟩ := List.mem_filterMap.1 member
  exact each property (wellFormed property inside) value found

theorem Property.WellFormed.prompt {property : Property} (wellFormed : property.WellFormed) :
    ∀ text ∈ property.prompt?, text.WellFormed IsText := by
  cases property with
  | prompt text => exact fun _ found => Option.some.inj found ▸ wellFormed
  | _ => exact nofun

theorem Property.WellFormed.default {property : Property} (wellFormed : property.WellFormed) :
    ∀ value ∈ property.default?, value.WellFormed Expr.WellFormed := by
  cases property with
  | default value => exact fun _ found => Option.some.inj found ▸ wellFormed
  | _ => exact nofun

theorem Property.WellFormed.range {property : Property} (wellFormed : property.WellFormed) :
    ∀ bounds ∈ property.range?, bounds.WellFormed Bounds.WellFormed := by
  cases property with
  | range bounds => exact fun _ found => Option.some.inj found ▸ wellFormed
  | _ => exact nofun

theorem Property.WellFormed.select {property : Property} (wellFormed : property.WellFormed) :
    ∀ target ∈ property.select?, target.WellFormed PlainName := by
  cases property with
  | select target => exact fun _ found => Option.some.inj found ▸ wellFormed
  | _ => exact nofun

theorem Property.WellFormed.env {property : Property} (wellFormed : property.WellFormed) :
    ∀ name ∈ property.env?, name.WellFormed PlainName := by
  cases property with
  | env name => exact fun _ found => Option.some.inj found ▸ wellFormed
  | _ => exact nofun

theorem Property.WellFormed.dependsOn {property : Property} (wellFormed : property.WellFormed) :
    ∀ condition ∈ property.dependsOn?, condition.WellFormed := by
  cases property with
  | dependsOn condition => exact fun _ found => Option.some.inj found ▸ wellFormed
  | _ => exact nofun

theorem first_prompt_well_formed {properties : List Property}
    (wellFormed : ∀ property ∈ properties, property.WellFormed) :
    ∀ text ∈ properties.findSome? Property.prompt?, text.WellFormed IsText := by
  intro text found
  obtain ⟨property, inside, found⟩ := List.exists_of_findSome?_eq_some found
  exact (wellFormed property inside).prompt text found

theorem ConfigClauses.WellFormed.sorted {draft : ConfigClauses} (wellFormed : draft.WellFormed) :
    draft.sorted.WellFormed where
  name := wellFormed.name
  inherited := .getD wellFormed.inherited
  prompt := first_prompt_well_formed wellFormed.properties
  defaults := clauses_of_kind (fun _ => Property.WellFormed.default) wellFormed.properties
  selects := clauses_of_kind (fun _ => Property.WellFormed.select) wellFormed.properties
  ranges := clauses_of_kind (fun _ => Property.WellFormed.range) wellFormed.properties
  dependsOn := clauses_of_kind (fun _ => Property.WellFormed.dependsOn) wellFormed.properties
  env := clauses_of_kind (fun _ => Property.WellFormed.env) wellFormed.properties

theorem MenuClauses.WellFormed.heading {draft : MenuClauses} (wellFormed : draft.WellFormed) :
    draft.heading.WellFormed IsText :=
  ⟨wellFormed.title, .getD wellFormed.dependsOn⟩

theorem ChoiceClauses.WellFormed.sorted {draft : ChoiceClauses} (wellFormed : draft.WellFormed)
    {choice : Choice} (sorted : draft.sorted? = some choice) : choice.WellFormed := by
  obtain ⟨prompt, found, same⟩ := Option.bind_eq_some_iff.1 sorted
  obtain rfl := Option.some.inj same
  exact ⟨first_prompt_well_formed wellFormed prompt found,
    clauses_of_kind (fun _ => Property.WellFormed.default) wellFormed,
    clauses_of_kind (fun _ => Property.WellFormed.dependsOn) wellFormed⟩

theorem source_of_map_m {Target : Type} {change : Value → Option Target} {values : List Value}
    {results : List Target} (changed : values.mapM change = some results) :
    ∀ result ∈ results, ∃ value ∈ values, change value = some result := by
  induction values generalizing results with
  | nil =>
      obtain rfl := Option.some.inj changed
      exact nofun
  | cons value values induction =>
      rw [List.mapM_cons] at changed
      obtain ⟨first, found, changed⟩ := Option.bind_eq_some_iff.1 changed
      obtain ⟨others, found', same⟩ := Option.bind_eq_some_iff.1 changed
      obtain rfl := Option.some.inj same
      refine List.forall_mem_cons.2 ⟨⟨value, List.mem_cons_self, found⟩, fun result member => ?_⟩
      obtain ⟨source, inside, same⟩ := induction found' result member
      exact ⟨source, List.mem_cons_of_mem _ inside, same⟩

end Sorting

namespace Draft

/-- What holds of the symbol of every draft holds of all symbols below a node. -/
theorem forall_below {valid : Symbol → Prop} {drafts : List Draft} {symbols : List Symbol}
    (found : below drafts = some symbols)
    (each : ∀ draft ∈ drafts, ∀ symbol, symbol? draft = some symbol → valid symbol) :
    ∀ symbol ∈ symbols, valid symbol := by
  intro symbol member
  rw [below, List.mapM_map] at found
  obtain ⟨draft, inside, same⟩ := source_of_map_m found symbol member
  exact each draft inside symbol same

/-- The symbol of a well-formed draft is well-formed. -/
theorem WellFormed.symbol {draft : Draft} (wellFormed : draft.WellFormed) :
    ∀ symbol, symbol? draft = some symbol → symbol.WellFormed := by
  induction wellFormed with
  | entry head _ induction =>
      intro symbol found
      rw [symbol_entry] at found
      obtain ⟨children, below, rfl⟩ := Option.map_eq_some_iff.1 found
      exact .entry head.sorted (forall_below below induction)
  | menu head _ induction =>
      intro symbol found
      rw [symbol_menu] at found
      obtain ⟨children, below, rfl⟩ := Option.map_eq_some_iff.1 found
      exact .menu head.heading (forall_below below induction)
  | choice head entries _ induction =>
      intro symbol found
      rw [symbol_choice] at found
      obtain ⟨choice, sorted, found⟩ := Option.bind_eq_some_iff.1 found
      obtain ⟨options, changed, rfl⟩ := Option.map_eq_some_iff.1 found
      have sources := source_of_map_m changed
      refine .choice (head.sorted sorted) (fun option member => ?_) (fun option member => ?_)
      · obtain ⟨source, inside, found⟩ := sources option member
        obtain ⟨children, -, rfl⟩ := Option.map_eq_some_iff.1 found
        exact (entries source inside).sorted
      · obtain ⟨source, inside, found⟩ := sources option member
        obtain ⟨children, below, rfl⟩ := Option.map_eq_some_iff.1 found
        exact forall_below below (induction source inside)

end Draft

namespace Root

/-- A source gives a tree just if its tokens are derived and every choice of the draft is
complete. -/
theorem parse_eq_ok_iff {source : String} {root : Root} :
    parse source = .ok root ↔ ∃ words drafts symbols, Token.ofSource source = .ok words ∧
      Phrase.Source words drafts ∧ Draft.symbols drafts = .ok symbols ∧
      root = .ofChildren symbols := by
  unfold parse Token.ofSource
  cases Lexeme.ofSource source with
  | error error => simp
  | ok lexemes =>
      dsimp only
      have result := source_read (lexemes.map Lexeme.token)
      generalize Grammar.source (lexemes.map Lexeme.token) = outcome at result
      constructor
      · intro parsed
        cases result with
        | rejected => exact nomatch parsed
        | @accepted drafts _ holds =>
            dsimp only at parsed
            cases found : Draft.symbols drafts with
            | error number =>
                rw [found] at parsed
                exact nomatch parsed
            | ok symbols =>
                rw [found] at parsed
                exact ⟨_, drafts, symbols, rfl, holds, found, (Except.ok.inj parsed).symm⟩
      · rintro ⟨words, drafts, symbols, same, holds, found, rfl⟩
        obtain rfl := Except.ok.inj same
        cases result with
        | rejected none => exact absurd holds (none drafts)
        | accepted _ only =>
            obtain rfl := only drafts holds
            dsimp only
            rw [found]

theorem well_formed_of_parse {source : String} {root : Root} (parsed : parse source = .ok root) :
    root.WellFormed := by
  obtain ⟨words, drafts, symbols, read, holds, found, rfl⟩ := parse_eq_ok_iff.1 parsed
  have genuine := (Token.of_source_iff.1 read).genuine
  have wellFormed := Phrase.source_well_formed holds genuine
  refine ⟨rfl, fun child member => ?_⟩
  obtain ⟨draft, inside, same⟩ := source_of_map_m (Draft.symbols_eq_ok_iff.1 found) child member
  exact (wellFormed draft inside).symbol child same

/-- The canonical text is cut into a derivation of the draft of its tree. -/
theorem tokens_of_extract {root : Root} (wellFormed : root.WellFormed) {indent : String}
    (blank : ∀ char ∈ indent.toList, isBlank char = true) :
    ∃ words, Token.ofSource (root.extract indent) = .ok words ∧
      Phrase.Source words (root.children.map Symbol.draft) := by
  have readable : ReadableLines (root.children.flatMap Symbol.extractLines) := by
    rw [List.flatMap_def]
    exact readable_lines_flatten fun symbol member =>
      Symbol.readable_lines (wellFormed.children symbol member)
  obtain ⟨lexemes, scanned, same⟩ := of_source_render (cuts_indented blank readable [])
  rw [tokens_indented] at same
  refine ⟨_, ?_, Symbol.source_of_lines wellFormed.children⟩
  rw [← same, Token.ofSource, extract, extractPieces, scanned]

/-- Every tree that is read is well-formed. Its canonical text, with any indent, gives the tree
again, and printing that gives the same text. -/
theorem parse_canonical {source : String} {root : Root} (parsed : parse source = .ok root) :
    root.WellFormed ∧ ∀ indent : String, (∀ char ∈ indent.toList, isBlank char = true) →
      parse (root.extract indent) = .ok root ∧
      (parse (root.extract indent)).map (·.extract indent) = .ok (root.extract indent) := by
  have wellFormed := well_formed_of_parse parsed
  refine ⟨wellFormed, fun indent blank => ?_⟩
  obtain ⟨words, read, holds⟩ := tokens_of_extract wellFormed blank
  have again : parse (root.extract indent) = .ok root := by
    refine parse_eq_ok_iff.2 ⟨words, _, root.children, read, holds, symbols_of_drafts _, ?_⟩
    rw [ofChildren, ← wellFormed.prompt]
  exact ⟨again, by rw [again]; rfl⟩

/-- A number, read in a block without a guard and with its clauses on one line. -/
def rateRoot : Root := .ofChildren [.entry {
  name := "RATE"
  isMenu := false
  type := .integer
  inherited := .no
  prompt := none
  defaults := []
  selects := []
  ranges := [⟨⟨.int "-1", .hex "0x1F"⟩, .not (.id "A")⟩]
  dependsOn := []
  env := [] } []]

def rateSource : String :=
  "if [] \x7b config RATE integer\x7brange[-1 0x1F]if[!(A)] inherited [n]\x7d \x7d"

/-- Its canonical text, indented by blanks, is read back. -/
theorem parse_canonical_of_rate : parse rateSource = .ok rateRoot ∧ rateRoot.WellFormed ∧
    (∀ char ∈ "  ".toList, isBlank char = true) ∧
    parse (rateRoot.extract "  ") = .ok rateRoot := by
  have parsed : parse rateSource = .ok rateRoot := by decide +kernel
  have blank : ∀ char ∈ "  ".toList, isBlank char = true := List.all_eq_true.1 (by decide)
  obtain ⟨wellFormed, again⟩ := parse_canonical parsed
  exact ⟨parsed, wellFormed, blank, (again "  " blank).1⟩

end Root

end KernelMenu

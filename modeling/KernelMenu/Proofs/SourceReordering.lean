import KernelMenu.Proofs.ClauseOrder
import KernelMenu.Proofs.SourceWrapping
import KernelMenu.Proofs.TreeStatements

/-!
Sources that differ in the order of clauses. In the body of any entry or choice, clauses with
different keywords may change places, and prompts behind the first one may come and go: the tree
stays the same, whatever follows the clauses. What a node holds of each kind are its clauses of that
kind, in their order.
-/

namespace KernelMenu

open Grammar Phrase Relation

namespace Draft

def optionsBelow (options : List (ConfigClauses × List Draft)) :
    Option (List (Config × List Symbol)) :=
  options.mapM fun option => (below option.2).map fun children => (option.1.sorted, children)

def Alike (drafts drafts' : List Draft) : Prop := below drafts = below drafts'

def OptionsAlike (options options' : List (ConfigClauses × List Draft)) : Prop :=
  optionsBelow options = optionsBelow options'

theorem below_single (draft : Draft) :
    below [draft] = (symbol? draft).map fun symbol => [symbol] := by
  rw [below, List.map_singleton, List.mapM_cons, List.mapM_nil]
  cases symbol? draft <;> rfl

variable {drafts drafts' : List Draft} {options options' : List (ConfigClauses × List Draft)}

theorem Alike.entry {head head' : ConfigClauses} (inside : Alike drafts drafts')
    (same : head.sorted = head'.sorted) :
    Alike [.entry head drafts] [.entry head' drafts'] := by
  rw [Alike, below_single, below_single, symbol_entry, symbol_entry, same, inside]

theorem Alike.option {head head' : ConfigClauses} (inside : Alike drafts drafts')
    (same : head.sorted = head'.sorted) : OptionsAlike [(head, drafts)] [(head', drafts')] := by
  rw [OptionsAlike, optionsBelow, optionsBelow, List.mapM_cons, List.mapM_cons, same, inside]

theorem OptionsAlike.choice {head head' : ChoiceClauses} (inside : OptionsAlike options options')
    (same : head.sorted? = head'.sorted?) :
    Alike [.choice head options] [.choice head' options'] := by
  rw [OptionsAlike, optionsBelow, optionsBelow] at inside
  rw [Alike, below_single, below_single, symbol_choice, symbol_choice, same, inside]

theorem congruent_alike : Congruent Alike OptionsAlike where
  refl _ := rfl
  refl' _ := rfl
  append same same' := by
    rw [Alike, below] at same same' ⊢
    rw [below, List.map_append, List.map_append, List.mapM_append, List.mapM_append, same, same']
    rfl
  append' same same' := by
    rw [OptionsAlike, optionsBelow] at same same' ⊢
    rw [optionsBelow, List.mapM_append, List.mapM_append, same, same']
    rfl
  menu head same := by
    rw [Alike, below_single, below_single, symbol_menu, symbol_menu, same]
  entry head same := same.entry rfl
  option head same := same.option rfl
  choice head same := same.choice rfl

theorem Alike.symbols (alike : Alike drafts drafts') {symbols : List Symbol} :
    Draft.symbols drafts = .ok symbols ↔ Draft.symbols drafts' = .ok symbols := by
  rw [Alike, below, below, List.mapM_map, List.mapM_map] at alike
  rw [symbols_eq_ok_iff, symbols_eq_ok_iff]
  exact Eq.congr_left alike

end Draft

namespace Grammar.Phrase

def entryWord (header : List Token) (clauses : List (List Token)) (last inside : List Token) :
    List Token :=
  header ++ Token.mark .openBrace :: clauses.flatten ++ last ++ inside ++ [.mark .closeBrace]

def choiceWord (type : ValueType) (isOptional : Bool) (clauses : List (List Token))
    (entries : List Token) : List Token :=
  Token.keyword .choice :: Token.keyword type.keyword ::
    (if isOptional then [Token.keyword .optional] else []) ++
    Token.mark .openBrace :: clauses.flatten ++ entries ++ [.mark .closeBrace]

/-- The clauses of one body, of an entry or a choice anywhere in a source, are reordered. -/
inductive Reorders : List Token → List Token → Prop
  | entry {row : Row} {front back header last inside : List Token}
      {clauses clauses' : List (List Token)} {isMenu : Bool} {name : String} {type : ValueType}
      {inherited : Option Expr} {drafts : List Draft} :
      Place row front back → Header header isMenu name type →
      (∀ clause ∈ clauses, ∃ property, PropertyClause clause property) →
      Maybe Inherited last inherited → Source inside drafts → Reordered clauses clauses' →
      Reorders (front ++ entryWord header clauses last inside ++ back)
        (front ++ entryWord header clauses' last inside ++ back)
  | choice {front back entries : List Token} {clauses clauses' : List (List Token)}
      {options : List (ConfigClauses × List Draft)} (type : ValueType) (isOptional : Bool) :
      Place .symbols front back →
      (∀ clause ∈ clauses, ∃ property, ChoiceClause clause property) →
      Star Config entries options → Reordered clauses clauses' →
      Reorders (front ++ choiceWord type isOptional clauses entries ++ back)
        (front ++ choiceWord type isOptional clauses' entries ++ back)

theorem exists_properties {language : Language Property} {clauses : List (List Token)}
    (holds : ∀ clause ∈ clauses, ∃ property, language clause property) :
    ∃ properties, List.Forall₂ language clauses properties := by
  induction clauses with
  | nil => exact ⟨[], .nil⟩
  | cons clause clauses induction =>
      obtain ⟨⟨property, first⟩, others⟩ := List.forall_mem_cons.1 holds
      obtain ⟨properties, rest⟩ := induction others
      exact ⟨property :: properties, .cons first rest⟩

theorem Reorders.related {words words' : List Token} (reorders : Reorders words words') :
    Row.symbols.Related Draft.Alike Draft.OptionsAlike words words' := by
  cases reorders with
  | @entry row _ _ _ _ _ _ _ isMenu name type inherited drafts place header each last inside
      reordered =>
      obtain ⟨properties, holds⟩ := exists_properties each
      obtain ⟨properties', holds', alike⟩ :=
        reordered.alike (fun _ _ => id) (fun _ _ => id) holds
      have sorted := alike.entry name isMenu type inherited
      have same : Draft.Alike drafts drafts := rfl
      refine place.related Draft.congruent_alike (row.related_of_config ?_ ?_ (same.entry sorted)
        (same.option sorted))
      · exact config_of_source header (star_of_clauses holds) last inside
      · exact config_of_source header (star_of_clauses holds') last inside
  | @choice _ _ _ _ _ options type isOptional place each entries reordered =>
      obtain ⟨properties, holds⟩ := exists_properties each
      obtain ⟨properties', holds', alike⟩ :=
        reordered.alike (fun _ _ => property_of_choice) (fun _ _ => .prompt) holds
      have same : Draft.OptionsAlike options options := rfl
      refine place.related Draft.congruent_alike ⟨_, _, ?_, ?_,
        same.choice (alike.choice type isOptional)⟩
      · exact source_of_symbol (.choice type isOptional (star_of_clauses holds) entries)
      · exact source_of_symbol (.choice type isOptional (star_of_clauses holds') entries)

/-- However clauses are reordered, the same symbols are derived. -/
theorem symbols_of_reorders {words words' : List Token} (related : EqvGen Reorders words words') :
    ∀ symbols, (∃ drafts, Source words drafts ∧ Draft.symbols drafts = .ok symbols) ↔
      ∃ drafts, Source words' drafts ∧ Draft.symbols drafts = .ok symbols := by
  induction related with
  | rel words words' reorders =>
      obtain ⟨drafts, drafts', holds, holds', alike⟩ := reorders.related
      refine fun symbols => ⟨?_, ?_⟩
      · rintro ⟨others, also, found⟩
        rw [source_unique also holds] at found
        exact ⟨drafts', holds', alike.symbols.1 found⟩
      · rintro ⟨others, also, found⟩
        rw [source_unique also holds'] at found
        exact ⟨drafts, holds, alike.symbols.2 found⟩
  | refl => exact fun _ => Iff.rfl
  | symm _ _ _ induction => exact fun symbols => (induction symbols).symm
  | trans _ _ _ _ _ first second => exact fun symbols => (first symbols).trans (second symbols)

end Grammar.Phrase

def replaced (before inside after : String) : String := before ++ " " ++ inside ++ " " ++ after

theorem tokens_of_replaced {before inside after inside' : String} {front run back : List Lexeme}
    {words : List Token} (parted : Parted before inside after front run back)
    (read : Token.ofSource inside' = .ok words) :
    Token.ofSource (replaced before inside' after) =
      .ok (front.map Lexeme.token ++ words ++ back.map Lexeme.token) := by
  obtain ⟨first, -, last⟩ := parted.cuts
  have middle := Token.of_source_iff.1 read
  rw [← List.append_nil inside'.toList] at middle
  have blank : ∀ rest : List Char, Cut rest (' ' :: rest) [] := fun rest => .blank rfl .done
  have ahead : ∀ (rest : List Char) (char : Char),
      (' ' :: rest).head? = some char → isBlank char = true := by
    rintro rest char ⟨⟩
    rfl
  have inner := (middle.in_front (ahead _)).append ((blank _).append last)
  have whole := (first.in_front (ahead _)).append ((blank _).append inner)
  apply Token.of_source_iff.2
  simpa [replaced] using whole

namespace Root

variable {source : String} {root : Root}

theorem parse_of_reorders {source' : String} {words words' : List Token}
    (read : Token.ofSource source = .ok words) (read' : Token.ofSource source' = .ok words')
    (related : EqvGen Reorders words words') (parsed : parse source = .ok root) :
    parse source' = .ok root := by
  obtain ⟨_, drafts, symbols, also, holds, found, rfl⟩ := parse_eq_ok_iff.1 parsed
  obtain rfl := Except.ok.inj (also.symm.trans read)
  obtain ⟨drafts', holds', found'⟩ := (symbols_of_reorders related symbols).1 ⟨drafts, holds, found⟩
  exact parse_eq_ok_iff.2 ⟨words', drafts', symbols, read', holds', found', rfl⟩

/-- Clauses of a body may change places, if each keyword keeps the order of its clauses, and prompts
behind the first one may be added or left out: the tree is the same, and there is always a source
with the clauses in the new order. What a node holds of each kind are its clauses of that kind in
their order, and its prompt is the first one. -/
theorem parse_reordered (parsed : parse source = .ok root) :
    (∀ source' words words', Token.ofSource source = .ok words →
      Token.ofSource source' = .ok words' → EqvGen Reorders words words' →
      parse source' = .ok root) ∧
    (∀ before inside after inside' front run back words,
      source = before ++ inside ++ after → Parted before inside after front run back →
      Token.ofSource inside' = .ok words →
      EqvGen Reorders ((front ++ run ++ back).map Lexeme.token)
        (front.map Lexeme.token ++ words ++ back.map Lexeme.token) →
      parse (replaced before inside' after) = .ok root) ∧
    (∀ words words', Token.ofSource source = .ok words → EqvGen Reorders words words' →
      (∀ word ∈ words', word ∈ words ∨ word.Genuine) →
      ∃ source', Token.ofSource source' = .ok words' ∧ parse source' = .ok root) ∧
    ∃ words parts, Token.ofSource source = .ok words ∧
      (∀ statements, Listing words statements ↔ statements = parts.flatten) ∧
      List.Forall₂ Node.MadeOf root.nodes parts := by
  refine ⟨?_, ?_, ?_, ?_⟩
  · intro source' words words' read read' related
    exact parse_of_reorders read read' related parsed
  · rintro before inside after inside' front run back words rfl parted read related
    have read' : Token.ofSource (before ++ inside ++ after) =
        .ok ((front ++ run ++ back).map Lexeme.token) := by
      rw [Token.ofSource, parted.scanned]
    exact parse_of_reorders read' (tokens_of_replaced parted read) related parsed
  · intro words words' read related known
    have genuine := (Token.of_source_iff.1 read).genuine
    obtain ⟨source', read'⟩ := exists_source fun word member =>
      (known word member).elim (genuine word) id
    exact ⟨source', read', parse_of_reorders read read' related parsed⟩
  · obtain ⟨words, drafts, symbols, read, holds, found, rfl⟩ := parse_eq_ok_iff.1 parsed
    have listing := listing_of_source holds
    have sorted := Draft.sorted_symbols (Draft.symbols_eq_ok_iff.1 found)
    have made := Draft.made_of_all sorted (all_keep holds.stands)
    have flat : Draft.said drafts =
        ((drafts.flatMap Outline.heads).map Draft.statements).flatten := List.flatMap_def
    rw [flat] at listing
    refine ⟨words, _, read, fun statements => ⟨fun other => other.unique listing, ?_⟩, made⟩
    rintro rfl
    exact listing

/-- An entry with a value and another entry below it. -/
def pairRoot : Root := .ofChildren [.entry {
  name := "A"
  isMenu := false
  type := .hex
  inherited := .yes
  prompt := some ⟨"P", .yes⟩
  defaults := [⟨.id "B", .id "C"⟩]
  selects := []
  ranges := []
  dependsOn := []
  env := [] } [.entry ⟨"E", false, .hex, .yes, none, [], [], [], [], []⟩ []]]

def pairSource : String :=
  "config A hex\x7bprompt \"P\" default[B]if[C]prompt \"Q\"if[D]\x7bconfig E hex\x7d\x7d"

def pairWords (clauses : List (List Token)) : List Token :=
  entryWord [.keyword .config, .ident "A", .keyword .hex] clauses []
    [.keyword .guard, .mark .openBracket, .ident "D", .mark .closeBracket,
      .mark .openBrace, .keyword .config, .ident "E", .keyword .hex, .mark .closeBrace]

def promptClause (text : String) : List Token := [.keyword .prompt, .text text]

def valueClause : List Token :=
  [.keyword .default, .mark .openBracket, .ident "B", .mark .closeBracket,
    .keyword .guard, .mark .openBracket, .ident "C", .mark .closeBracket]

theorem prompt_clause (text : String) :
    PropertyClause (promptClause text) (.prompt ⟨text, .yes⟩) := .prompt text .none

theorem bracketed_name (name : String) (other : name ∉ ["y", "m", "n"]) :
    Bracketed [.mark .openBracket, .ident name, .mark .closeBracket] (.id name) :=
  .intro (.some (expression_of_unary (.value (.ident name other))))

theorem value_clause : PropertyClause valueClause (.default ⟨.id "B", .id "C"⟩) :=
  .default (bracketed_name "B" (by decide)) (.some (.intro (bracketed_name "C" (by decide))))

theorem reorders_pair {clauses clauses' : List (List Token)}
    (each : ∀ clause ∈ clauses, ∃ property, PropertyClause clause property)
    (reordered : Reordered clauses clauses') :
    Reorders (pairWords clauses) (pairWords clauses') := by
  have below := source_of_symbol (.config (.bare (.config "E" .hex)))
  have block := source_of_block (.intro (bracketed_name "D" (by decide))) below
  have whole := Reorders.entry .source (.config "A" .hex) each .none block reordered
  rwa [List.append_nil, List.append_nil] at whole

/-- Whether a prompt or a clause with a guard stands last, the guard of the block behind the clauses
is not taken for one of theirs. -/
theorem parse_reordered_of_pair :
    parse pairSource = .ok pairRoot ∧
    parse "config A hex\x7bprompt \"P\" prompt \"Q\" default[B]if[C]if[D]\x7bconfig E hex\x7d\x7d" =
      .ok pairRoot ∧
    parse "config A hex\x7bprompt \"P\" default[B]if[C]if[D]\x7bconfig E hex\x7d\x7d" =
      .ok pairRoot := by
  have parsed : parse pairSource = .ok pairRoot := by decide +kernel
  have read : Token.ofSource pairSource =
      .ok (pairWords [promptClause "P", valueClause, promptClause "Q"]) := by decide +kernel
  have fewer : ∀ clause ∈ [promptClause "P", valueClause],
      ∃ property, PropertyClause clause property :=
    List.forall_mem_cons.2 ⟨⟨_, prompt_clause "P"⟩, List.forall_mem_singleton.2 ⟨_, value_clause⟩⟩
  have each : ∀ clause ∈ [promptClause "P", valueClause, promptClause "Q"],
      ∃ property, PropertyClause clause property :=
    List.forall_mem_append.2 ⟨fewer, List.forall_mem_singleton.2 ⟨_, prompt_clause "Q"⟩⟩
  have moved := reorders_pair each
    (.permuted (.cons _ (.swap (promptClause "Q") valueClause [])) (by rintro ⟨⟩ <;> rfl))
  have added := reorders_pair fewer
    (@Reordered.prompt [] [valueClause] [] _ _ _ _ (prompt_clause "P") (prompt_clause "Q"))
  obtain ⟨related, -⟩ := parse_reordered parsed
  refine ⟨parsed, related _ _ _ read ?_ (.rel _ _ moved),
    related _ _ _ read ?_ (.symm _ _ (.rel _ _ added))⟩ <;> decide +kernel

end Root

end KernelMenu

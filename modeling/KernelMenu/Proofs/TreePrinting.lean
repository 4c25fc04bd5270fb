import KernelMenu.Proofs.Acceptance
import KernelMenu.Proofs.ClausePrinting

/-!
The printed tree is read back as itself. Its lines hold a derivation of its draft, they are cut into
their tokens however they are indented, and the grammar has no other reading of them.
-/

namespace KernelMenu

open Grammar Piece Language Extract

namespace Symbol

theorem extract_lines_entry (config : Config) (children : List Symbol) :
    extractLines (.entry config children) = configLines config (children.map extractLines) :=
  Outline.fold_entry _ config children

theorem extract_lines_menu (title : Guarded String) (children : List Symbol) :
    extractLines (.menu title children) = menuLines title (children.map extractLines) :=
  Outline.fold_menu _ title children

theorem extract_lines_choice (choice : Choice) (options : List (Config × List Symbol)) :
    extractLines (.choice choice options) = choiceLines choice
      (options.map fun option => configLines option.1 (option.2.map extractLines)) := by
  rw [extractLines, Outline.fold_choice]
  dsimp only
  rw [List.map_map]
  rfl

end Symbol

namespace Extract

theorem lines_tokens_append (front back : List Line) :
    linesTokens (front ++ back) = linesTokens front ++ linesTokens back := List.flatMap_append

theorem lines_tokens_map {Source : Type} (print : Source → Line) (sources : List Source) :
    linesTokens (sources.map print) = sources.flatMap fun source => tokens (print source).pieces :=
  List.flatMap_map _ _ sources

theorem lines_tokens_flatten {Source : Type} (print : Source → List Line) (sources : List Source) :
    linesTokens (sources.map print).flatten = sources.flatMap fun source =>
      linesTokens (print source) := by
  rw [← List.flatMap_def, linesTokens, List.flatMap_assoc]
  rfl

/-- The depth of the lines in a block does not matter to their tokens. -/
theorem tokens_block (header : List (List Piece)) (body : List Line) :
    linesTokens (block header body) =
      header.flatMap tokens ++ .mark .openBrace :: linesTokens body ++
      [.mark .closeBrace] := by
  have inner :
      linesTokens (body.map fun line => ⟨line.depth + 1, line.pieces⟩) = linesTokens body :=
    lines_tokens_map _ body
  have closing : linesTokens [line [brace .closeBrace]] = [.mark .closeBrace] := rfl
  have opening : tokens (line (header ++ [brace .openBrace])).pieces =
      header.flatMap tokens ++ [.mark .openBrace] := by
    rw [tokens_line, List.flatMap_append]
    rfl
  rw [block, lines_tokens_append, closing]
  rw [linesTokens, List.flatMap_cons, opening]
  change header.flatMap tokens ++ [.mark .openBrace] ++ linesTokens _ ++ _ = _
  rw [inner, List.append_assoc (header.flatMap tokens), List.singleton_append]

theorem readable_block {header : List (List Piece)} {body : List Line}
    (words : ReadableWords header) (lines : ReadableLines body) :
    ReadableLines (block header body) := by
  have brace := fun sign other =>
    readable_words_cons (@readable_brace sign other) readable_words_nil
  have opening := readable_line (readable_words_append words (brace .openBrace (by decide)))
  have closing := readable_line (brace .closeBrace (by decide))
  have inner : ReadableLines (body.map fun line => ⟨line.depth + 1, line.pieces⟩) :=
    readable_lines_map lines
  exact List.forall_mem_cons.2 ⟨opening, readable_lines_append inner
    (List.forall_mem_singleton.2 closing)⟩

def propertyLines (config : Config) : List Line :=
  config.prompt.toList.map promptLine ++ config.dependsOn.map dependsLine ++
    config.defaults.map defaultLine ++ config.ranges.map rangeLine ++
    config.selects.map selectLine ++ config.env.map envLine

theorem readable_property_lines {config : Config} (wellFormed : config.WellFormed) :
    ReadableLines (propertyLines config) := by
  have prompt := readable_lines_map fun prompt member =>
    readable_prompt_line (wellFormed.prompt prompt (Option.mem_toList.1 member))
  have dependsOn := readable_lines_map fun expr member =>
    readable_depends_line (wellFormed.dependsOn expr member)
  have defaults := readable_lines_map fun value member =>
    readable_default_line (wellFormed.defaults value member)
  have ranges := readable_lines_map fun bounds member =>
    readable_range_line (wellFormed.ranges bounds member)
  have selects := readable_lines_map fun target member =>
    readable_select_line (wellFormed.selects target member)
  have env := readable_lines_map fun name member => readable_env_line (wellFormed.env name member)
  exact readable_lines_append (readable_lines_append (readable_lines_append
    (readable_lines_append (readable_lines_append prompt dependsOn) defaults) ranges) selects) env

theorem readable_lines_flatten {Source : Type} {print : Source → List Line} {sources : List Source}
    (readable : ∀ source ∈ sources, ReadableLines (print source)) :
    ReadableLines (sources.map print).flatten := by
  intro line member
  obtain ⟨block, inside, member⟩ := List.mem_flatten.1 member
  obtain ⟨source, sourceMember, rfl⟩ := List.mem_map.1 inside
  exact readable source sourceMember line member

theorem readable_config_lines {config : Config} (wellFormed : config.WellFormed)
    {children : List Symbol} (below : ∀ child ∈ children, ReadableLines child.extractLines) :
    ReadableLines (configLines config (children.map Symbol.extractLines)) := by
  have header : ReadableWords [word config.keyword, named config.name, word config.type.keyword] :=
    readable_words_cons (readable_word _) (readable_words_cons (readable_named wellFormed.name)
      (readable_words_cons (readable_word _) readable_words_nil))
  rw [configLines]
  split
  · exact List.forall_mem_singleton.2 (readable_line header)
  · have clauses := readable_lines_append (readable_property_lines wellFormed)
      (readable_inherited_lines wellFormed.inherited)
    exact readable_block header (readable_lines_append clauses (readable_lines_flatten below))

theorem readable_menu_lines {title : Guarded String} (wellFormed : title.WellFormed IsText)
    {children : List Symbol} (below : ∀ child ∈ children, ReadableLines child.extractLines) :
    ReadableLines (menuLines title (children.map Symbol.extractLines)) := by
  have header : ReadableWords [word .menu, quoted title.payload] :=
    readable_words_cons (readable_word .menu)
      (readable_words_cons (readable_quoted wellFormed.payload) readable_words_nil)
  have dependency : ReadableLines
      (if title.condition.isYes then [] else [dependsLine title.condition]) := by
    split
    · exact nofun
    · exact List.forall_mem_singleton.2 (readable_depends_line wellFormed.condition)
  exact readable_block header (readable_lines_append dependency (readable_lines_flatten below))

theorem readable_choice_lines {choice : Choice} (wellFormed : choice.WellFormed)
    {options : List (Config × List Symbol)}
    (below : ∀ option ∈ options,
      ReadableLines (configLines option.1 (option.2.map Symbol.extractLines))) :
    ReadableLines (choiceLines choice (options.map fun option =>
      configLines option.1 (option.2.map Symbol.extractLines))) := by
  have header : ReadableWords ([word .choice, word choice.type.keyword] ++
      if choice.isMandatory then [] else [word .optional]) := by
    refine readable_words_append (readable_words_cons (readable_word _)
      (readable_words_cons (readable_word _) readable_words_nil)) ?_
    split
    · exact readable_words_nil
    · exact readable_words_cons (readable_word _) readable_words_nil
  have prompt := readable_prompt_line wellFormed.prompt
  have defaults := readable_lines_map fun value member =>
    readable_default_line (wellFormed.defaults value member)
  have dependsOn := readable_lines_map fun expr member =>
    readable_depends_line (wellFormed.dependsOn expr member)
  have clauses := readable_lines_append (List.forall_mem_cons.2 ⟨prompt, defaults⟩) dependsOn
  exact readable_block header (readable_lines_append clauses (readable_lines_flatten below))

theorem star_of_lines {Source Value : Type} {language : Grammar.Language Value}
    {print : Source → Line}
    {meaning : Source → Value} {sources : List Source}
    (holds : ∀ source ∈ sources, language (tokens (print source).pieces) (meaning source)) :
    Grammar.Star language (linesTokens (sources.map print)) (sources.map meaning) := by
  rw [lines_tokens_map]
  exact star_of_forall holds

theorem properties_of_lines {config : Config} (wellFormed : config.WellFormed) :
    Grammar.Star Phrase.PropertyClause (linesTokens (propertyLines config))
      config.clauses.properties := by
  have prompt := star_of_lines fun prompt member =>
    prompt_of_line (wellFormed.prompt prompt (Option.mem_toList.1 member))
  have dependsOn := star_of_lines fun expr member =>
    Phrase.PropertyClause.depends (dependency_of_line (wellFormed.dependsOn expr member))
  have defaults := star_of_lines fun value member =>
    default_of_line (wellFormed.defaults value member)
  have ranges := star_of_lines fun bounds member => range_of_line (wellFormed.ranges bounds member)
  have selects := star_of_lines fun target member =>
    select_of_line (wellFormed.selects target member)
  have env := star_of_lines fun name member => env_of_line (wellFormed.env name member)
  have whole := star_append (star_append (star_append (star_append (star_append prompt dependsOn)
    defaults) ranges) selects) env
  rw [propertyLines, lines_tokens_append, lines_tokens_append, lines_tokens_append,
    lines_tokens_append, lines_tokens_append]
  exact whole

theorem header_of_words (config : Config) :
    Phrase.Header
      ([word config.keyword, named config.name, word config.type.keyword].flatMap tokens)
      config.isMenu config.name config.type := by
  cases kind : config.isMenu with
  | false =>
      have keyword : config.keyword = .config := by rw [Config.keyword, kind]; rfl
      rw [keyword]
      exact .config config.name config.type
  | true =>
      have keyword : config.keyword = .menuconfig := by rw [Config.keyword, kind]; rfl
      rw [keyword]
      exact .menuconfig config.name config.type

theorem clauses_of_plain {config : Config} (plain : config.isPlain = true) :
    config.clauses = ⟨config.name, config.isMenu, config.type, [], none⟩ := by
  simp only [Config.isPlain, Bool.and_eq_true, Option.isNone_iff_eq_none, List.isEmpty_iff] at plain
  obtain ⟨⟨⟨⟨⟨⟨inherited, prompt⟩, defaults⟩, selects⟩, ranges⟩, dependsOn⟩, env⟩ := plain
  rw [Config.clauses, prompt, defaults, selects, ranges, dependsOn, env, Expr.unlessYes,
    if_pos inherited]
  rfl

theorem flatten_drafts (children : List Symbol) :
    (children.map fun child => [child.draft]).flatten = children.map Symbol.draft := by
  rw [← List.flatMap_def, List.map_eq_flatMap]

theorem config_of_lines {config : Config} (wellFormed : config.WellFormed) {children : List Symbol}
    (below : ∀ child ∈ children, Phrase.Symbol (linesTokens child.extractLines) [child.draft]) :
    Phrase.Config (linesTokens (configLines config (children.map Symbol.extractLines)))
      (config.clauses, children.map Symbol.draft) := by
  have header := header_of_words config
  rw [configLines]
  split
  case isTrue bare =>
    rw [Config.isBare, Bool.and_eq_true, List.isEmpty_iff, List.map_eq_nil_iff] at bare
    obtain ⟨plain, rfl⟩ := bare
    rw [linesTokens, List.flatMap_singleton, tokens_line, clauses_of_plain plain]
    exact .bare header
  case isFalse =>
    have symbols := star_of_forall below
    have whole := Phrase.Config.body header (properties_of_lines wellFormed)
      (inherited_of_lines wellFormed.inherited) symbols
    have body : linesTokens (propertyLines config ++ inheritedLines config.inherited ++
        (children.map Symbol.extractLines).flatten) = linesTokens (propertyLines config) ++
          linesTokens (inheritedLines config.inherited) ++
            children.flatMap fun child => linesTokens child.extractLines := by
      rw [lines_tokens_append, lines_tokens_append, lines_tokens_flatten]
    rw [flatten_drafts] at whole
    rw [tokens_block]
    change Phrase.Config (_ ++ _ :: linesTokens (propertyLines config ++ _ ++ _) ++ _) _
    rw [body]
    simp only [List.append_assoc, List.cons_append] at whole ⊢
    exact whole

def choiceClauseLines (choice : Choice) : List Line :=
  promptLine choice.prompt :: choice.defaults.map defaultLine ++ choice.dependsOn.map dependsLine

theorem choice_clauses_of_lines {choice : Choice} (wellFormed : choice.WellFormed) :
    Grammar.Star Phrase.ChoiceClause (linesTokens (choiceClauseLines choice))
      choice.clauses.properties := by
  have prompt := Phrase.ChoiceClause.prompt (prompt_of_line wellFormed.prompt)
  have defaults := star_of_lines fun value member =>
    Phrase.ChoiceClause.default (default_of_line (wellFormed.defaults value member))
  have dependsOn := star_of_lines fun expr member =>
    Phrase.ChoiceClause.depends (.depends (dependency_of_line (wellFormed.dependsOn expr member)))
  have whole := star_append (Star.cons prompt defaults) dependsOn
  rw [choiceClauseLines, lines_tokens_append]
  exact whole

theorem choice_of_lines {choice : Choice} (wellFormed : choice.WellFormed)
    {options : List (Config × List Symbol)}
    (below : ∀ option ∈ options, Phrase.Config
      (linesTokens (configLines option.1 (option.2.map Symbol.extractLines)))
      (option.1.clauses, option.2.map Symbol.draft)) :
    Phrase.Symbol (linesTokens (Symbol.extractLines (.choice choice options)))
      [Symbol.draft (.choice choice options)] := by
  have whole := Phrase.Symbol.choice choice.type (!choice.isMandatory)
    (choice_clauses_of_lines wellFormed) (star_of_forall below)
  have body : linesTokens (choiceClauseLines choice ++ (options.map fun option =>
      configLines option.1 (option.2.map Symbol.extractLines)).flatten) =
        linesTokens (choiceClauseLines choice) ++ options.flatMap fun option =>
          linesTokens (configLines option.1 (option.2.map Symbol.extractLines)) := by
    rw [lines_tokens_append, lines_tokens_flatten]
  have header : ([word .choice, word choice.type.keyword] ++
      if choice.isMandatory then [] else [word .optional]).flatMap tokens =
        .keyword .choice :: .keyword choice.type.keyword ::
          if (!choice.isMandatory) = true then [.keyword .optional] else [] := by
    cases choice.isMandatory <;> rfl
  rw [Symbol.extract_lines_choice, Symbol.draft_choice, choiceLines, tokens_block, header]
  change Phrase.Symbol (_ ++ _ :: linesTokens (choiceClauseLines choice ++ _) ++ _) _
  rw [body]
  simp only [List.append_assoc, List.cons_append] at whole ⊢
  exact whole

theorem menu_of_lines {title : Guarded String} (wellFormed : title.WellFormed IsText)
    {children : List Symbol}
    (below : ∀ child ∈ children, Phrase.Symbol (linesTokens child.extractLines) [child.draft]) :
    Phrase.Symbol (linesTokens (Symbol.extractLines (.menu title children)))
      [Symbol.draft (.menu title children)] := by
  have dependency : Maybe Phrase.Dependency
      (linesTokens (if title.condition.isYes then [] else [dependsLine title.condition]))
      title.condition.unlessYes := by
    rw [Expr.unlessYes]
    split
    · exact .none
    · rw [linesTokens, List.flatMap_singleton]
      exact .some (dependency_of_line wellFormed.condition)
  have whole := Phrase.Symbol.menu title.payload dependency (star_of_forall below)
  rw [flatten_drafts] at whole
  rw [Symbol.extract_lines_menu, Symbol.draft_menu, menuLines, tokens_block, lines_tokens_append,
    lines_tokens_flatten]
  simp only [List.append_assoc, List.cons_append] at whole ⊢
  exact whole

end Extract

namespace Symbol

/-- The tokens of a printed symbol are a symbol, and stand for its draft. -/
theorem phrase_of_lines {symbol : Symbol} (wellFormed : symbol.WellFormed) :
    Phrase.Symbol (linesTokens symbol.extractLines) [symbol.draft] := by
  induction wellFormed with
  | entry head _ induction =>
      rw [extract_lines_entry, draft_entry]
      exact .config (config_of_lines head induction)
  | menu head _ induction => exact menu_of_lines head induction
  | choice head entries _ induction =>
      exact choice_of_lines head fun option member =>
        config_of_lines (entries option member) (induction option member)

theorem readable_lines {symbol : Symbol} (wellFormed : symbol.WellFormed) :
    ReadableLines symbol.extractLines := by
  induction wellFormed with
  | entry head _ induction =>
      rw [extract_lines_entry]
      exact readable_config_lines head induction
  | menu head _ induction =>
      rw [extract_lines_menu]
      exact readable_menu_lines head induction
  | choice head entries _ induction =>
      rw [extract_lines_choice]
      exact readable_choice_lines head fun option member =>
        readable_config_lines (entries option member) (induction option member)

theorem source_of_lines {symbols : List Symbol}
    (wellFormed : ∀ symbol ∈ symbols, symbol.WellFormed) :
    Phrase.Source (linesTokens (symbols.flatMap extractLines)) (symbols.map draft) := by
  have below := star_of_forall fun symbol member => phrase_of_lines (wellFormed symbol member)
  have whole := Phrase.Source.intro below
  rw [flatten_drafts] at whole
  rw [List.flatMap_def, lines_tokens_flatten]
  exact whole

end Symbol

namespace Extract

theorem tokens_indented (indent : String) (lines : List Line) :
    tokens (lines.flatMap (Line.indented indent)) = linesTokens lines := by
  induction lines with
  | nil => rfl
  | cons line lines induction =>
      rw [List.flatMap_cons, tokens_append, induction, Line.indented, List.cons_append, tokens_gap,
        tokens_append, tokens_gap]
      simp [linesTokens, tokens]

theorem cuts_indented {indent : String} (blank : ∀ char ∈ indent.toList, isBlank char = true)
    {lines : List Line} (readable : ReadableLines lines) (rest : List Char) :
    CutsBefore (lines.flatMap (Line.indented indent)) rest := by
  induction lines with
  | nil => exact cuts_nil rest
  | cons line lines induction =>
      obtain ⟨first, others⟩ := List.forall_mem_cons.1 readable
      have indentation : ∀ char ∈ (String.join (List.replicate line.depth indent)).toList,
          isBlank char = true := by
        intro char member
        rw [String.toList_join, List.mem_flatMap] at member
        obtain ⟨part, inside, member⟩ := member
        rw [List.eq_of_mem_replicate inside] at member
        exact blank char member
      rw [List.flatMap_cons, Line.indented, List.cons_append, ← List.singleton_append,
        List.append_assoc, List.append_assoc]
      refine cuts_append (cuts_gap indentation _) (cuts_append (first _ ?_) (cuts_append
        (cuts_gap (List.all_eq_true.1 (by decide)) _) (induction others)))
      rw [List.singleton_append, chars_cons]
      exact ends_word_cons (by decide)

end Extract

/-- A rule that reads a source in one way reads it in the way that it is derived. -/
theorem source_of_phrase {word : List Token} {drafts : List Draft}
    (holds : Phrase.Source word drafts) :
    ∃ missed, Grammar.source word = .ok drafts word.length missed := by
  have result := source_read word
  generalize Grammar.source word = outcome at result
  cases result with
  | @accepted drafts' missed _ only => exact ⟨missed, by rw [only drafts holds]⟩
  | rejected none => exact absurd holds (none drafts)

/-- Reading undoes printing, for all trees that can be written down and any indent. -/
theorem Root.parse_extract {root : Root} (wellFormed : root.WellFormed) {indent : String}
    (blank : ∀ char ∈ indent.toList, isBlank char = true) :
    Root.parse (root.extract indent) = .ok root := by
  have readable : ReadableLines (root.children.flatMap Symbol.extractLines) := by
    rw [List.flatMap_def]
    exact readable_lines_flatten fun symbol member =>
      Symbol.readable_lines (wellFormed.children symbol member)
  obtain ⟨lexemes, scanned, same⟩ := of_source_render (cuts_indented blank readable [])
  obtain ⟨missed, read⟩ := source_of_phrase (Symbol.source_of_lines wellFormed.children)
  rw [tokens_indented] at same
  rw [Root.parse, Root.extract, Root.extractPieces, scanned]
  dsimp only
  rw [same, read]
  dsimp only
  rw [symbols_of_drafts]
  dsimp only
  rw [Root.ofChildren, ← wellFormed.prompt]

/-- A menu with an entry and a choice in it. -/
def networkRoot : Root := .ofChildren [
  .menu ⟨"Net \\\"fast\\\"", .and (.not (.eq (.id "NET") .no)) (.or (.id "A") (.id "B"))⟩ [
    .entry {
      name := "RATE_2"
      isMenu := true
      type := .integer
      inherited := .yes
      prompt := some ⟨"Rate", .ne (.literal "") (.not .mod)⟩
      defaults := [⟨.int "-1", .yes⟩]
      selects := [⟨"y", .id "X86"⟩]
      ranges := [⟨⟨.int "-1", .hex "0x1F"⟩, .yes⟩]
      dependsOn := [.yes]
      env := [] } [],
    .choice ⟨⟨"Way", .yes⟩, true, false, [], []⟩ [(
      ⟨"WAY", false, .boolean, .yes, none, [], [], [], [], []⟩, [])]]]

theorem network_well_formed : networkRoot.WellFormed := by
  have minus : SignedDigits "-1".toList := .negative (show isDecimalWord ['1'] = true from rfl)
  have title : (Expr.and (.not (.eq (.id "NET") .no)) (.or (.id "A") (.id "B"))).WellFormed :=
    .and (.not (.eq (.id (by decide) (by decide)) .no))
      (.or (.id (by decide) (by decide)) (.id (by decide) (by decide)))
  have bounds : (Bounds.mk (.int "-1") (.hex "0x1F")).WellFormed :=
    ⟨.int minus, .hex (by decide), rfl, rfl⟩
  refine ⟨rfl, List.forall_mem_singleton.2 (.menu ⟨by decide, title⟩ (List.forall_mem_cons.2
    ⟨.entry ?_ nofun, List.forall_mem_singleton.2 (.choice ⟨⟨by decide, .yes⟩, nofun, nofun⟩
      (List.forall_mem_singleton.2 ?_) (List.forall_mem_singleton.2 nofun))⟩))⟩
  · refine ⟨by decide, .yes, ?_, List.forall_mem_singleton.2 ⟨.int minus, .yes⟩,
      List.forall_mem_singleton.2 ⟨by decide, .id (by decide) (by decide)⟩,
      List.forall_mem_singleton.2 ⟨bounds, .yes⟩, List.forall_mem_singleton.2 .yes, nofun⟩
    intro prompt member
    obtain rfl := Option.some.inj member
    exact ⟨by decide, .ne (.literal (by decide)) (.not .mod)⟩
  · exact ⟨by decide, .yes, nofun, nofun, nofun, nofun, nofun, nofun⟩

/-- Its text indented by a tab is read back. -/
theorem Root.parse_extract_of_network : networkRoot.WellFormed ∧
    (∀ char ∈ "\t".toList, isBlank char = true) ∧
    Root.parse (networkRoot.extract "\t") = .ok networkRoot :=
  ⟨network_well_formed, List.all_eq_true.1 (by decide),
    Root.parse_extract network_well_formed (List.all_eq_true.1 (by decide))⟩

end KernelMenu

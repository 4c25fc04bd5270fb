import KernelMenu.Extract
import KernelMenu.Proofs.DraftSorting
import KernelMenu.Proofs.ExpressionPrinting

/-!
The printed lines of clauses. Each one is cut into its tokens wherever it stands, and its tokens are
those of the clause.
-/

namespace KernelMenu

open Grammar Piece

namespace Extract

/-- What can stand among the words of a line. -/
def ReadableWords (words : List (List Piece)) : Prop := ∀ word ∈ words, Readable word

theorem readable_words_nil : ReadableWords [] := nofun

theorem readable_words_cons {first : List Piece} {words : List (List Piece)}
    (readable : Readable first) (others : ReadableWords words) : ReadableWords (first :: words) :=
  List.forall_mem_cons.2 ⟨readable, others⟩

theorem readable_words_append {front back : List (List Piece)} (first : ReadableWords front)
    (second : ReadableWords back) : ReadableWords (front ++ back) :=
  List.forall_mem_append.2 ⟨first, second⟩

theorem readable_word (keyword : Keyword) : Readable (word keyword) :=
  readable_token (Token.genuine_keyword keyword) nofun

theorem readable_quoted {text : String} (isText : IsText text) : Readable (quoted text) :=
  readable_token isText nofun

theorem readable_named {name : String} (plain : PlainName name) : Readable (named name) :=
  readable_token plain nofun

theorem readable_brace {sign : Mark} (other : sign ≠ .not) : Readable (brace sign) :=
  readable_token (Token.genuine_mark sign) (by simpa using other)

theorem readable_bracketed {inner : List Piece} (readable : Readable inner) :
    Readable (bracketed inner) :=
  readable_enclosed (by decide) readable (by decide)

theorem readable_condition {expr : Expr} (wellFormed : expr.WellFormed) :
    ReadableWords (condition expr) :=
  readable_words_cons (readable_bracketed (Expr.readable_pieces wellFormed).1) readable_words_nil

theorem readable_guard {expr : Expr} (wellFormed : expr.WellFormed) :
    ReadableWords (guard expr) := by
  rw [guard]
  split
  · exact readable_words_nil
  · exact readable_words_cons (readable_word .guard) (readable_condition wellFormed)

theorem readable_clause {name : Keyword} {payload : List Piece} {expr : Expr}
    (readable : Readable payload) (wellFormed : expr.WellFormed) :
    ReadableWords (word name :: payload :: guard expr) :=
  readable_words_cons (readable_word name)
    (readable_words_cons readable (readable_guard wellFormed))

theorem tokens_line (words : List (List Piece)) :
    tokens (line words).pieces = words.flatMap tokens :=
  tokens_spaced words

theorem readable_line {words : List (List Piece)} (readable : ReadableWords words) :
    Readable (line words).pieces :=
  readable_spaced readable

def ReadableLines (lines : List Line) : Prop := ∀ line ∈ lines, Readable line.pieces

def linesTokens (lines : List Line) : List Token := lines.flatMap fun line => tokens line.pieces

theorem tokens_bracketed (inner : List Piece) : tokens (bracketed inner) =
    .mark .openBracket :: tokens inner ++ [.mark .closeBracket] := by
  rw [bracketed, List.cons_append, tokens_token, tokens_append]
  rfl

theorem bracketed_of_condition {expr : Expr} (wellFormed : expr.WellFormed) :
    Phrase.Bracketed ((condition expr).flatMap tokens) expr := by
  have holds := Phrase.Bracketed.intro (.some (Expr.expression_of_pieces wellFormed))
  rw [condition, List.flatMap_singleton, tokens_bracketed]
  exact holds

/-- The words of a guard are a guard, or none if the condition always holds. -/
theorem guard_of_words {expr : Expr} (wellFormed : expr.WellFormed) :
    Maybe Phrase.Guard ((guard expr).flatMap tokens) expr.unlessYes := by
  rw [guard, Expr.unlessYes]
  split
  · exact .none
  · exact .some (.intro (bracketed_of_condition wellFormed))

section Clauses

theorem prompt_of_line {prompt : Guarded String} (wellFormed : prompt.WellFormed IsText) :
    Phrase.PropertyClause (tokens (promptLine prompt).pieces) (.prompt prompt) := by
  have holds := Phrase.PropertyClause.prompt prompt.payload (guard_of_words wellFormed.condition)
  rw [Expr.unless_yes_get] at holds
  rw [promptLine, tokens_line]
  exact holds

theorem select_of_line {target : Guarded String} (wellFormed : target.WellFormed PlainName) :
    Phrase.PropertyClause (tokens (selectLine target).pieces) (.select target) := by
  have holds := Phrase.PropertyClause.select target.payload (guard_of_words wellFormed.condition)
  rw [Expr.unless_yes_get] at holds
  rw [selectLine, tokens_line]
  exact holds

theorem env_of_line {name : Guarded String} (wellFormed : name.WellFormed PlainName) :
    Phrase.PropertyClause (tokens (envLine name).pieces) (.env name) := by
  have holds := Phrase.PropertyClause.env name.payload (guard_of_words wellFormed.condition)
  rw [Expr.unless_yes_get] at holds
  rw [envLine, tokens_line]
  exact holds

theorem default_of_line {value : Guarded Expr} (wellFormed : value.WellFormed Expr.WellFormed) :
    Phrase.PropertyClause (tokens (defaultLine value).pieces) (.default value) := by
  have holds := Phrase.PropertyClause.default (bracketed_of_condition wellFormed.payload)
    (guard_of_words wellFormed.condition)
  rw [Expr.unless_yes_get] at holds
  rw [defaultLine, tokens_line, List.flatMap_append, List.flatMap_cons]
  exact holds

theorem range_of_line {bounds : Guarded Bounds} (wellFormed : bounds.WellFormed Bounds.WellFormed) :
    Phrase.PropertyClause (tokens (rangeLine bounds).pieces) (.range bounds) := by
  have low := Expr.value_of_leaf wellFormed.payload.low wellFormed.payload.lowLeaf
  have high := Expr.value_of_leaf wellFormed.payload.high wellFormed.payload.highLeaf
  have holds := Phrase.PropertyClause.range low high (guard_of_words wellFormed.condition)
  rw [Expr.unless_yes_get] at holds
  have inner : tokens (bracketed (Piece.spaced [bounds.payload.low.pieces,
      bounds.payload.high.pieces])) = .mark .openBracket :: (tokens bounds.payload.low.pieces ++
        tokens bounds.payload.high.pieces) ++ [.mark .closeBracket] := by
    rw [tokens_bracketed, tokens_spaced]
    simp
  rw [rangeLine, tokens_line, List.flatMap_append, List.flatMap_cons, List.flatMap_singleton, inner]
  simpa [word, tokens] using holds

theorem dependency_of_line {expr : Expr} (wellFormed : expr.WellFormed) :
    Phrase.Dependency (tokens (dependsLine expr).pieces) expr := by
  have holds := Phrase.Dependency.intro (bracketed_of_condition wellFormed) .none
  rw [List.append_nil] at holds
  rw [dependsLine, tokens_line]
  exact holds

theorem inherited_of_lines {expr : Expr} (wellFormed : expr.WellFormed) :
    Maybe Phrase.Inherited (linesTokens (inheritedLines expr)) expr.unlessYes := by
  rw [inheritedLines, Expr.unlessYes]
  split
  · exact .none
  · rw [linesTokens, List.flatMap_singleton, tokens_line]
    exact .some (.intro (bracketed_of_condition wellFormed))

end Clauses

section Lines

theorem readable_lines_append {front back : List Line} (first : ReadableLines front)
    (second : ReadableLines back) : ReadableLines (front ++ back) :=
  List.forall_mem_append.2 ⟨first, second⟩

theorem readable_lines_map {Source : Type} {print : Source → Line} {sources : List Source}
    (readable : ∀ source ∈ sources, Readable (print source).pieces) :
    ReadableLines (sources.map print) :=
  List.forall_mem_map.2 readable

theorem readable_prompt_line {prompt : Guarded String} (wellFormed : prompt.WellFormed IsText) :
    Readable (promptLine prompt).pieces :=
  readable_line (readable_clause (readable_quoted wellFormed.payload) wellFormed.condition)

theorem readable_select_line {target : Guarded String} (wellFormed : target.WellFormed PlainName) :
    Readable (selectLine target).pieces :=
  readable_line (readable_clause (readable_named wellFormed.payload) wellFormed.condition)

theorem readable_env_line {name : Guarded String} (wellFormed : name.WellFormed PlainName) :
    Readable (envLine name).pieces :=
  readable_line (readable_clause (readable_named wellFormed.payload) wellFormed.condition)

theorem readable_default_line {value : Guarded Expr}
    (wellFormed : value.WellFormed Expr.WellFormed) :
    Readable (defaultLine value).pieces := by
  have payload := readable_bracketed (Expr.readable_pieces wellFormed.payload).1
  exact readable_line (readable_clause payload wellFormed.condition)

theorem readable_range_line {bounds : Guarded Bounds}
    (wellFormed : bounds.WellFormed Bounds.WellFormed) : Readable (rangeLine bounds).pieces := by
  have low := (Expr.readable_pieces wellFormed.payload.low).1
  have high := (Expr.readable_pieces wellFormed.payload.high).1
  have ends := readable_spaced
      (readable_words_cons low (readable_words_cons high readable_words_nil))
  exact readable_line (readable_clause (readable_bracketed ends) wellFormed.condition)

theorem readable_depends_line {expr : Expr} (wellFormed : expr.WellFormed) :
    Readable (dependsLine expr).pieces := by
  have tail := readable_words_cons (readable_word .on) (readable_condition wellFormed)
  exact readable_line (readable_words_cons (readable_word .depends) tail)

theorem readable_inherited_lines {expr : Expr} (wellFormed : expr.WellFormed) :
    ReadableLines (inheritedLines expr) := by
  rw [inheritedLines]
  split
  · exact nofun
  · have words := readable_words_cons (readable_word .inherited) (readable_condition wellFormed)
    exact List.forall_mem_singleton.2 (readable_line words)

end Lines

end Extract

end KernelMenu

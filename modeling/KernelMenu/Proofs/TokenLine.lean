import KernelMenu.Proofs.SourceWrapping
import KernelMenu.View

/-!
Tokens on one line, a space between each two of them. The line holds all that the tokens are: it is
cut into the same tokens again, whatever stands next to what, and so it gives the tree that they
give.
-/

namespace KernelMenu

theorem Token.line_to_list (words : List Token) : (line words).toList =
    [' '].intercalate (words.map fun word => word.spelling.toList) := by
  rw [line, String.toList_intercalate, List.map_map]
  rfl

/-- Tokens are read back from their line just if all of them can come from a source. -/
theorem Token.of_source_line_iff {words : List Token} :
    Token.ofSource (line words) = .ok words ↔ ∀ word ∈ words, word.Genuine := by
  rw [of_source_iff, line_to_list]
  exact ⟨Cut.genuine, Cut.of_spaced⟩

/-- A space stands between signs that would be one, and within a text it parts nothing. -/
example : Token.ofSource (Token.line [.mark .not, .mark .eq, .int "-6", .text "a \\\" b"]) =
    .ok [.mark .not, .mark .eq, .int "-6", .text "a \\\" b"] := by
  decide +kernel

namespace View

theorem render_line {source : String} {words : List Token}
    (read : Token.ofSource source = .ok words) (options : RenderOptions) :
    render ⟨.tokens, .simple⟩ source options = .ok (Token.line words) := by
  simp only [render, read, Token.render]

/-- The listing of tokens by their spellings encodes them. Any tokens with payloads of their own
shape are read back from their line; so the listing of a source, which is the line of its tokens,
has the tokens of the source, lists itself, and is parsed to the same tree. -/
theorem token_listing (words : List Token) :
    (Token.ofSource (Token.line words) = .ok words ↔ ∀ word ∈ words, word.Genuine) ∧
    View.ofName "token-simple" = .ok ⟨.tokens, .simple⟩ ∧
    ∀ source, Token.ofSource source = .ok words → ∀ options options',
      render ⟨.tokens, .simple⟩ source options = .ok (Token.line words) ∧
      Token.ofSource (Token.line words) = .ok words ∧
      render ⟨.tokens, .simple⟩ (Token.line words) options' = .ok (Token.line words) ∧
      ∀ root, Root.parse (Token.line words) = .ok root ↔ Root.parse source = .ok root := by
  refine ⟨Token.of_source_line_iff, by decide, fun source read options options' => ?_⟩
  have genuine := (Token.of_source_iff.1 read).genuine
  have again := Token.of_source_line_iff.2 genuine
  refine ⟨render_line read options, again, render_line again options', ?_⟩
  intro root
  constructor
  · exact Root.parse_of_same again read fun _ => Iff.rfl
  · exact Root.parse_of_same read again fun _ => Iff.rfl

/-- A keyword, a number and a text that looks like more of them, over two lines. -/
theorem token_listing_of_default :
    Token.ofSource "default[-3\n]\"if \\\" 7\"" =
      .ok [.keyword .default, .mark .openBracket, .int "-3", .mark .closeBracket,
        .text "if \\\" 7"] ∧
    render ⟨.tokens, .simple⟩ "default[-3\n]\"if \\\" 7\"" ⟨false, ""⟩ =
      .ok "default [ -3 ] \"if \\\" 7\"" ∧
    Token.ofSource "default [ -3 ] \"if \\\" 7\"" =
      .ok [.keyword .default, .mark .openBracket, .int "-3", .mark .closeBracket,
        .text "if \\\" 7"] := by
  have read : Token.ofSource "default[-3\n]\"if \\\" 7\"" =
      .ok [.keyword .default, .mark .openBracket, .int "-3", .mark .closeBracket,
        .text "if \\\" 7"] := by decide +kernel
  obtain ⟨-, -, listed⟩ := token_listing [.keyword .default, .mark .openBracket, .int "-3",
    .mark .closeBracket, .text "if \\\" 7"]
  obtain ⟨listing, again, -⟩ := listed _ read ⟨false, ""⟩ ⟨false, ""⟩
  exact ⟨read, listing, again⟩

end View

end KernelMenu

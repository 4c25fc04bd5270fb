import KernelMenu.Piece
import KernelMenu.Proofs.LexemePlace
import KernelMenu.Proofs.TokenReading

/-!
Printed text is cut into the tokens that it was made of. What decides it is what comes right behind
each token, so a print-out is looked at in front of a rest, and two of them are put together by
looking at the first one in front of the second.
-/

namespace KernelMenu

/-- No word goes on with the text. -/
def EndsWord (rest : List Char) : Prop := ∀ char, rest.head? = some char → isWordChar char = false

theorem ends_word_cons {char : Char} {rest : List Char} (other : isWordChar char = false) :
    EndsWord (char :: rest) := by
  intro first same
  obtain rfl := Option.some.inj same
  exact other

namespace Piece

def chars (pieces : List Piece) : List Char := pieces.flatMap fun piece => piece.text.toList

theorem chars_append (front back : List Piece) :
    chars (front ++ back) = chars front ++ chars back :=
  List.flatMap_append

theorem chars_cons (piece : Piece) (pieces : List Piece) :
    chars (piece :: pieces) = piece.text.toList ++ chars pieces := List.flatMap_cons

theorem tokens_append (front back : List Piece) :
    tokens (front ++ back) = tokens front ++ tokens back := List.filterMap_append

theorem tokens_token (word : Token) (pieces : List Piece) :
    tokens (.token word :: pieces) = word :: tokens pieces := rfl

theorem tokens_gap (blanks : String) (pieces : List Piece) :
    tokens (.gap blanks :: pieces) = tokens pieces := rfl

theorem render_to_list (pieces : List Piece) : (render pieces).toList = chars pieces := by
  rw [render, String.toList_join, List.flatMap_map]
  rfl

/-- The print-out is cut into just its tokens when the rest comes behind it. -/
def CutsBefore (pieces : List Piece) (rest : List Char) : Prop :=
  ∀ start, ∃ lexemes stop, lexemes.map Lexeme.token = tokens pieces ∧
    ∀ others, Lexeme.scanFrom stop rest = .ok others →
      Lexeme.scanFrom start (chars pieces ++ rest) = .ok (lexemes ++ others)

theorem cuts_nil (rest : List Char) : CutsBefore [] rest :=
  fun start => ⟨[], start, rfl, fun _ scanned => scanned⟩

theorem cuts_append {front back : List Piece} {rest : List Char}
    (first : CutsBefore front (chars back ++ rest)) (second : CutsBefore back rest) :
    CutsBefore (front ++ back) rest := by
  intro start
  obtain ⟨lexemes, middle, same, scans⟩ := first start
  obtain ⟨lexemes', stop, same', scans'⟩ := second middle
  refine ⟨lexemes ++ lexemes', stop, ?_, fun others scanned => ?_⟩
  · rw [List.map_append, same, same', tokens_append]
  · have whole := scans _ (scans' others scanned)
    rwa [chars_append, List.append_assoc, List.append_assoc]

theorem cuts_gap {blanks : String} (blank : ∀ char ∈ blanks.toList, isBlank char = true)
    (rest : List Char) : CutsBefore [.gap blanks] rest := by
  intro start
  refine ⟨[], start + byteCount blanks.toList, rfl, fun others scanned => ?_⟩
  have whole := (Lexeme.scan_from_gap blank start).trans scanned
  simpa [chars, text] using whole

theorem cuts_token {word : Token} (genuine : word.Genuine) {rest : List Char}
    (ends : ∀ char, rest.head? = some char → word.endsAt char = true) :
    CutsBefore [.token word] rest := by
  intro start
  let stop := start + word.spelling.utf8ByteSize
  refine ⟨[⟨word, start, stop⟩], stop, rfl, fun others scanned => ?_⟩
  have whole := Lexeme.scan_from_token (Token.scan_of_spelling genuine ends) scanned
  simpa [chars, text] using whole

/-- All that ends a word ends the print-out. -/
def Readable (pieces : List Piece) : Prop := ∀ rest, EndsWord rest → CutsBefore pieces rest

theorem readable_token {word : Token} (genuine : word.Genuine) (other : word ≠ .mark .not) :
    Readable [.token word] := by
  intro rest endsWord
  apply cuts_token genuine
  intro char first
  have notWord := endsWord char first
  cases word with
  | mark sign =>
      cases sign with
      | not => exact absurd rfl other
      | _ => rfl
  | text body => rfl
  | keyword word | hex digits | int digits | ident name => simp [Token.endsAt, notWord]

theorem cuts_sign {sign : Mark} (other : sign ≠ .not) (rest : List Char) :
    CutsBefore [.token (.mark sign)] rest := by
  apply cuts_token (Token.genuine_mark sign)
  intro char _
  cases sign with
  | not => exact absurd rfl other
  | _ => rfl

/-- A mark that no word goes on with stands behind the first part, so the second one may begin with
any character. -/
theorem readable_around_sign {front back : List Piece} {sign : Mark} (other : sign ≠ .not)
    (first : Readable front) (second : Readable back) :
    Readable (front ++ .token (.mark sign) :: back) := by
  intro rest endsWord
  refine cuts_append (first _ ?_) (cuts_append (cuts_sign other _) (second rest endsWord))
  rw [chars_cons]
  cases sign <;> exact ends_word_cons (by decide)

theorem readable_enclosed {opening closing : Mark} (other : opening ≠ .not) {inner : List Piece}
    (readable : Readable inner) (other' : closing ≠ .not) :
    Readable (.token (.mark opening) :: inner ++ [.token (.mark closing)]) := by
  have read := readable_around_sign other' readable (fun rest _ => cuts_nil rest)
  intro rest endsWord
  have first := cuts_sign other (chars (inner ++ [.token (.mark closing)]) ++ rest)
  have whole := cuts_append first (read rest endsWord)
  rwa [List.singleton_append, ← List.cons_append] at whole

theorem readable_around_space {front back : List Piece} (first : Readable front)
    (second : Readable back) : Readable (front ++ space :: back) := by
  intro rest endsWord
  have blank : CutsBefore [space] (chars back ++ rest) :=
    cuts_gap (List.all_eq_true.1 (by decide)) _
  refine cuts_append (first _ ?_) (cuts_append blank (second rest endsWord))
  rw [chars_cons]
  exact ends_word_cons (by decide)

theorem spaced_cons_cons (word next : List Piece) (words : List (List Piece)) :
    spaced (word :: next :: words) = word ++ space :: spaced (next :: words) := by
  simp [spaced, List.intercalate_cons_cons]

theorem readable_spaced {words : List (List Piece)} (readable : ∀ word ∈ words, Readable word) :
    Readable (spaced words) := by
  induction words with
  | nil => exact fun rest _ => cuts_nil rest
  | cons word words induction =>
      have first := readable word List.mem_cons_self
      cases words with
      | nil => simpa [spaced] using first
      | cons next words =>
          rw [spaced_cons_cons]
          apply readable_around_space first
          exact induction fun other member => readable other (List.mem_cons_of_mem _ member)

theorem tokens_spaced (words : List (List Piece)) :
    tokens (spaced words) = words.flatMap tokens := by
  induction words with
  | nil => rfl
  | cons word words induction =>
      cases words with
      | nil => simp [spaced]
      | cons next words =>
          rw [spaced_cons_cons, tokens_append, List.flatMap_cons, ← induction]
          rfl

theorem of_source_render {pieces : List Piece} (cuts : CutsBefore pieces []) :
    ∃ lexemes, Lexeme.ofSource (render pieces) = .ok lexemes ∧
      lexemes.map Lexeme.token = tokens pieces := by
  obtain ⟨lexemes, stop, same, scans⟩ := cuts 0
  refine ⟨lexemes, ?_, same⟩
  have scanned := scans [] (by rw [Lexeme.scanFrom])
  rwa [List.append_nil, List.append_nil, ← render_to_list] at scanned

end Piece

end KernelMenu

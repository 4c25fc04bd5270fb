import KernelMenu.Proofs.Layout
import KernelMenu.Proofs.LongestToken

/-!
Lexemes tile their source: they stand in it one behind the other, each spelled as its token is, and
only blanks are left over. Stray text is what stands at its place as well, where no rule matches
anything, and in front of it the source is tiled.
-/

namespace KernelMenu

/-- The text stands in the source from one byte to another, and no character reaches across either
of them. -/
def StandsAt (source : String) (start stop : Nat) (text : String) : Prop :=
  ∃ before after, source = before ++ text ++ after ∧ before.utf8ByteSize = start ∧
    (before ++ text).utf8ByteSize = stop

structure Tiles (source : String) (lexemes : List Lexeme) : Prop where
  filled : ∀ lexeme ∈ lexemes, lexeme.start < lexeme.stop
  ordered : lexemes.Pairwise fun left right => left.stop ≤ right.start
  spelled : ∀ lexeme ∈ lexemes, StandsAt source lexeme.start lexeme.stop lexeme.token.spelling
  blank : ∀ before char after, source = before ++ String.singleton char ++ after →
    (∀ lexeme ∈ lexemes,
      before.utf8ByteSize < lexeme.start ∨ lexeme.stop ≤ before.utf8ByteSize) →
    isBlank char = true

/-- Text that is reported in front of a rest: a character, or a quote with all text units behind
it. -/
inductive Stray : List Char → List Char → Prop
  | char {char : Char} {rest : List Char} : char ≠ '"' → Stray [char] rest
  | quote {units rest : List Char} :
      TextUnits units →
      (∀ more back, rest = more ++ back → TextUnits (units ++ more) → more = []) →
      Stray ('"' :: units) rest

theorem item_of_append {Item : Type} {left right front back : List Item} {item : Item}
    (split : left ++ right = front ++ item :: back) :
    (∃ rest, left = front ++ item :: rest) ∨
      ∃ front', front = left ++ front' ∧ right = front' ++ item :: back := by
  rcases List.append_eq_append_iff.1 split with ⟨front', same, behind⟩ | ⟨rest, same, ahead⟩
  · exact .inr ⟨front', same, behind⟩
  · cases rest with
    | nil => exact .inr ⟨[], by simpa using same.symm, ahead.symm⟩
    | cons other rest =>
        obtain ⟨rfl, -⟩ := List.cons.inj ahead
        exact .inl ⟨rest, same⟩

namespace Layout

theorem stands_at {layout : Layout} {passed : List Char} {source : String}
    (whole : source.toList = passed ++ layout.text) :
    ∀ lexeme ∈ layout.lexemesFrom (byteCount passed),
      StandsAt source lexeme.start lexeme.stop lexeme.token.spelling := by
  induction layout generalizing passed with
  | last => exact nofun
  | word gap token rest induction =>
      rw [text] at whole
      have start := byte_count_append passed gap
      have stop := byte_count_append (passed ++ gap) token.spelling.toList
      rw [start, byte_count_to_list] at stop
      refine List.forall_mem_cons.2 ⟨?_, ?_⟩
      · refine ⟨String.ofList (passed ++ gap), String.ofList rest.text, ?_, start, ?_⟩
        · apply String.toList_injective
          simp [whole]
        · rw [String.utf8ByteSize_append]
          exact congrArg (· + _) start
      · have behind : source.toList = passed ++ gap ++ token.spelling.toList ++ rest.text := by
          simpa using whole
        have others := induction behind
        rwa [stop] at others

theorem Readable.blank_outside {layout : Layout} (readable : layout.Readable) {offset : Nat}
    {front back : List Char} {char : Char} (split : layout.text = front ++ char :: back)
    (outside : ∀ lexeme ∈ layout.lexemesFrom offset,
      offset + byteCount front < lexeme.start ∨ lexeme.stop ≤ offset + byteCount front) :
    isBlank char = true := by
  induction readable generalizing offset front with
  | last blank =>
      rw [text] at split
      exact blank char (split ▸ by simp)
  | @word gap token rest blank genuine stops _ induction =>
      obtain ⟨first, others⟩ := List.forall_mem_cons.1 outside
      rcases item_of_append split with ⟨gap', inGap⟩ | ⟨front', rfl, behind⟩
      · exact blank char (inGap ▸ by simp)
      rw [byte_count_append, ← Nat.add_assoc] at first others
      rcases item_of_append behind with ⟨spelling, inToken⟩ | ⟨front'', rfl, inRest⟩
      · -- A character of the token stands between the start and the stop of its lexeme.
        have size := byte_count_append front' (char :: spelling)
        have filled := byte_count_pos (List.cons_ne_nil char spelling)
        rw [← inToken, byte_count_to_list] at size
        dsimp only at first
        omega
      · rw [byte_count_append, byte_count_to_list, ← Nat.add_assoc] at others
        exact induction inRest others

end Layout

namespace Lexeme

theorem ordered_of_scan {start : Nat} {input : List Char} {lexemes : List Lexeme}
    (scanned : scanFrom start input = .ok lexemes) :
    lexemes.Pairwise fun left right => left.stop ≤ right.start := by
  fun_induction scanFrom start input generalizing lexemes with
  | case1 =>
      cases scanned
      exact .nil
  | case2 _ _ _ _ induction => exact induction scanned
  | case3 => cases scanned
  | case4 =>
      rename_i scanned' induction
      cases scanned
      have behind := (scan_from_starts scanned').1
      exact .cons (fun lexeme member => (behind lexeme member).1) (induction scanned')
  | case5 => cases scanned

theorem tiles_of_scan {source : String} {lexemes : List Lexeme}
    (scanned : ofSource source = .ok lexemes) : Tiles source lexemes := by
  obtain ⟨layout, shown, rfl⟩ := Layout.exists_layout scanned
  have readable : layout.Readable := by
    apply Layout.readable_of_scan
    rw [shown]
    exact scanned
  have whole : source.toList = [] ++ layout.text := shown.symm
  refine ⟨start_lt_stop scanned, ordered_of_scan scanned, Layout.stands_at whole, ?_⟩
  rintro before char after rfl outside
  have split : layout.text = before.toList ++ char :: after.toList := by
    simpa using shown
  have outside' : ∀ lexeme ∈ layout.lexemesFrom 0,
      0 + byteCount before.toList < lexeme.start ∨ lexeme.stop ≤ 0 + byteCount before.toList := by
    simpa [byteCount] using outside
  exact readable.blank_outside split outside'

/-- The source can be cut as far as the place where no token starts. -/
theorem cut_of_error {start : Nat} {input : List Char} {error : LexicalError}
    (failed : scanFrom start input = .error error) : ∃ front rest words,
      input = front ++ rest ∧ TokenRule.Stuck rest ∧
      error = ⟨String.ofList (strayText rest), start + byteCount front⟩ ∧
      Cut rest (front ++ rest) words := by
  fun_induction scanFrom start input generalizing error with
  | case1 => cases failed
  | case2 start char rest blank induction =>
      obtain ⟨front, rest, words, rfl, stuck, rfl, cut⟩ := induction failed
      refine ⟨char :: front, rest, words, rfl, stuck, ?_, .blank blank cut⟩
      rw [byte_count_blank blank, Nat.add_assoc]
  | case3 start char rest visible none =>
      obtain rfl := Except.error.inj failed
      exact ⟨[], char :: rest, [], rfl, TokenRule.stuck_of_scan visible none, rfl, .done⟩
  | case4 => cases failed
  | case5 =>
      rename_i start char rest notBlank token after found stop other failed' induction
      obtain rfl := Except.error.inj failed
      obtain ⟨front, rest', words, rfl, stuck, same, cut⟩ := induction failed'
      have spelled := Token.scan_spelling found
      rw [← List.append_assoc] at spelled
      refine ⟨token.spelling.toList ++ front, rest', token :: words, spelled.symm, stuck, ?_, ?_⟩
      · rw [same, byte_count_append, byte_count_to_list, ← Nat.add_assoc]
      · rw [spelled]
        exact .token found cut

/-- The text in front of the place where no token starts can be cut as a whole. -/
theorem scan_before_error {front rest : List Char} {words : List Token}
    (cut : Cut rest (front ++ rest) words) :
    ∃ lexemes, ofSource (String.ofList front) = .ok lexemes := by
  have alone : Cut [] (front ++ []) words := cut.in_front nofun
  rw [List.append_nil] at alone
  obtain ⟨lexemes, stop, -, scans⟩ := alone.scan 0
  refine ⟨lexemes ++ [], ?_⟩
  rw [ofSource, String.toList_ofList]
  exact scans [] (by rw [scanFrom])

end Lexeme

theorem stray_text {input : List Char} (filled : input ≠ []) :
    ∃ rest, input = strayText input ++ rest ∧ Stray (strayText input) rest := by
  cases input with
  | nil => exact absurd rfl filled
  | cons char rest =>
      by_cases quote : char = '"'
      · obtain rfl := quote
        refine ⟨(textRun rest).2, ?_, .quote (Token.units_of_run rest) ?_⟩
        · rw [strayText, List.cons_append, text_run_append]
        · intro more back split longer
          have whole := text_run_append rest
          rw [split, ← List.append_assoc] at whole
          have longest := Token.text_run_append_units longer back
          rw [whole] at longest
          have same := congrArg Prod.fst longest
          have lengths := congrArg List.length same
          simp only [List.length_append] at lengths
          exact List.length_eq_zero_iff.1 (by omega)
      · have same : strayText (char :: rest) = [char] := by
          rw [strayText]
          exact quote
        rw [same]
        exact ⟨rest, rfl, .char quote⟩

/-- Every source is tiled by its lexemes, or as far as a place where stray text stands and no rule
for tokens matches. -/
theorem Lexeme.of_source_tiles (source : String) :
    (∃ lexemes, ofSource source = .ok lexemes ∧ Tiles source lexemes) ∨
    ∃ error before after, ofSource source = .error error ∧ error.text ≠ "" ∧
      source = before ++ error.text ++ after ∧ before.utf8ByteSize = error.start ∧
      (before ++ error.text).utf8ByteSize = error.stop ∧
      Stray error.text.toList after.toList ∧
      TokenRule.Stuck (error.text.toList ++ after.toList) ∧
      ∃ lexemes, ofSource before = .ok lexemes ∧ Tiles before lexemes := by
  cases scanned : ofSource source with
  | ok lexemes => exact .inl ⟨lexemes, rfl, tiles_of_scan scanned⟩
  | error error =>
      obtain ⟨front, rest, words, split, stuck, same, cut⟩ := cut_of_error scanned
      obtain ⟨after, ends, stray⟩ := stray_text stuck.filled
      obtain ⟨lexemes, scanned'⟩ := scan_before_error cut
      have size : (String.ofList front).utf8ByteSize = error.start := by
        rw [same, Nat.zero_add]
        rfl
      have text : error.text.toList = strayText rest := by
        rw [same, String.toList_ofList]
      refine .inr
        ⟨error, String.ofList front, String.ofList after, rfl, ?_, ?_, size, ?_, ?_, ?_, ?_⟩
      · intro none
        rw [none] at text
        cases text ▸ stray
      · apply String.toList_injective
        simpa [text] using split.trans (congrArg (front ++ ·) ends)
      · rw [String.utf8ByteSize_append, size]
        rfl
      · rwa [text, String.toList_ofList]
      · rwa [text, String.toList_ofList, ← ends]
      · exact ⟨lexemes, scanned', tiles_of_scan scanned'⟩

/-- Of a text that is not closed, all is stray up to what cannot belong to a text. -/
example : Lexeme.ofSource "menu \"é\\q" = .error ⟨"\"é", 5⟩ := by
  decide +kernel

end KernelMenu

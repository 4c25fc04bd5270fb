import KernelMenu.Proofs.SourceCutting

/-!
The rules for tokens as they are written down: which texts each of them matches, and which rule
counts if several match the same text. Wherever the cutting of a source comes to, it takes the
longest text that any rule matches there, and it gives up just where no rule matches anything.
-/

namespace KernelMenu

inductive TokenRule where
  | keyword (word : Keyword)
  | mark (sign : Mark)
  | text | hex | int | ident
deriving DecidableEq, Repr

namespace TokenRule

def Matches : TokenRule → List Char → Prop
  | keyword word, matched => matched = word.spelling.toList
  | mark sign, matched => matched = sign.spelling.toList
  | text, matched => ∃ body, TextUnits body ∧ matched = '"' :: body ++ ['"']
  | hex, matched => isHexWord matched = true
  | int, matched => SignedDigits matched
  | ident, matched => matched ≠ [] ∧ ∀ char ∈ matched, isWordChar char = true

/-- The token that a rule makes of what it matches; a text goes without its quotes. -/
def token : TokenRule → List Char → Token
  | keyword word, _ => .keyword word
  | mark sign, _ => .mark sign
  | text, matched => .text (String.ofList matched.tail.dropLast)
  | hex, matched => .hex (String.ofList matched)
  | int, matched => .int (String.ofList matched)
  | ident, matched => .ident (String.ofList matched)

/-- Of rules that match the same text, the one with the least rank counts. -/
def rank : TokenRule → Nat
  | keyword _ | mark _ | text => 0
  | hex => 1
  | int => 2
  | ident => 3

/-- The rule matches the text, and of the rules that do it is the one that counts. -/
structure Counts (rule : TokenRule) (matched : List Char) : Prop where
  fits : rule.Matches matched
  first : ∀ other : TokenRule, other.Matches matched → rule.rank ≤ other.rank

/-- The rule takes the text off the front of what is left: it counts for the text, and no rule
matches a longer front. -/
structure Takes (rule : TokenRule) (matched rest : List Char) : Prop where
  counts : rule.Counts matched
  longest : ∀ (other : TokenRule) (front back : List Char),
    matched ++ rest = front ++ back → other.Matches front → front.length ≤ matched.length

/-- Something is left, but neither a blank nor what a rule matches stands in front of it. -/
structure Stuck (rest : List Char) : Prop where
  visible : ∃ char tail, rest = char :: tail ∧ isBlank char = false
  unmatched : ∀ (rule : TokenRule) (front back : List Char), rest = front ++ back →
    ¬ rule.Matches front

inductive Spelling : List Char → Prop
  | word {chars : List Char} :
      chars ≠ [] → (∀ char ∈ chars, isWordChar char = true) → Spelling chars
  | mark (sign : Mark) : Spelling sign.spelling.toList
  | text {body : List Char} : TextUnits body → Spelling ('"' :: body ++ ['"'])
  | negative {digits : List Char} : isDecimalWord digits = true → Spelling ('-' :: digits)

theorem Matches.spelling {rule : TokenRule} {matched : List Char} (fits : rule.Matches matched) :
    Spelling matched := by
  cases rule with
  | keyword word =>
      obtain rfl : matched = word.spelling.toList := fits
      obtain ⟨filled, wordy⟩ := keyword_wordy word
      exact .word filled wordy
  | mark sign =>
      obtain rfl : matched = sign.spelling.toList := fits
      exact .mark sign
  | text =>
      obtain ⟨body, units, rfl⟩ := fits
      exact .text units
  | hex =>
      have shaped : isHexWord matched = true := fits
      have filled : matched ≠ [] := by
        rintro rfl
        cases shaped
      exact .word filled (word_chars_of_hex shaped)
  | int =>
      cases (show SignedDigits matched from fits) with
      | plain shaped =>
          obtain ⟨filled, decimal⟩ := digits_of_decimal shaped
          exact .word filled fun char member => word_char_of_digit (decimal char member)
      | negative shaped => exact .negative shaped
  | ident => exact .word fits.1 fits.2

theorem run_reaches {test : Char → Bool} {front : List Char}
    (inside : ∀ char ∈ front, test char = true) (rest : List Char) :
    ∃ run after, front ++ rest = run ++ after ∧ (∀ char ∈ run, test char = true) ∧
      (∀ char, after.head? = some char → test char = false) ∧ after.length ≤ rest.length ∧
      (front ≠ [] → run ≠ []) := by
  refine ⟨front ++ rest.takeWhile test, rest.dropWhile test, ?_, ?_, ?_, ?_, ?_⟩
  · rw [List.append_assoc, List.takeWhile_append_dropWhile]
  · exact List.forall_mem_append.2 ⟨inside, List.all_eq_true.1 List.all_takeWhile⟩
  · exact fun char => Token.head_behind_run
  · exact (List.dropWhile_suffix test).length_le
  · exact fun filled none => filled (List.append_eq_nil_iff.1 none).1

/-- Where a rule matches something, a token is read, and it reaches at least as far. -/
theorem Spelling.scan {matched : List Char} (spelling : Spelling matched) (rest : List Char) :
    ∃ token after, Token.scan? (matched ++ rest) = some (token, after) ∧
      after.length ≤ rest.length := by
  cases spelling with
  | word filled wordy =>
      obtain ⟨run, after, same, wordy, ends, shorter, filled'⟩ := run_reaches wordy rest
      rw [same]
      exact ⟨_, after, Token.scan_word (filled' filled) wordy ends, shorter⟩
  | @text body units =>
      have genuine : TextUnits (String.ofList body).toList := by simpa using units
      have read := Token.scan_text genuine rest
      rw [String.toList_ofList] at read
      exact ⟨_, rest, by simpa using read, Nat.le_refl _⟩
  | negative shaped =>
      obtain ⟨filled, decimal⟩ := digits_of_decimal shaped
      obtain ⟨run, after, same, decimal, ends, shorter, filled'⟩ := run_reaches decimal rest
      have shaped' : isDecimalWord run = true := by
        simpa [isDecimalWord, filled' filled] using decimal
      rw [List.cons_append, same, ← List.cons_append]
      exact ⟨_, after, Token.scan_negative shaped' ends, shorter⟩
  | mark sign =>
      cases sign with
      | not =>
          -- The one mark that may go on: an equals sign behind it makes another one of both.
          cases rest with
          | nil => exact ⟨_, [], rfl, Nat.le_refl _⟩
          | cons char rest =>
              by_cases equals : char = '='
              · subst equals
                exact ⟨_, rest, rfl, Nat.le_succ _⟩
              · refine ⟨_, char :: rest, Token.scan_mark .not ?_, Nat.le_refl _⟩
                rintro other ⟨⟩
                simpa [Token.endsAt] using equals
      | _ => exact ⟨_, rest, rfl, Nat.le_refl _⟩

theorem Counts.genuine {rule : TokenRule} {matched : List Char} (counts : rule.Counts matched) :
    (rule.token matched).Genuine ∧ (rule.token matched).spelling.toList = matched := by
  cases rule with
  | keyword word => exact ⟨trivial, counts.fits.symm⟩
  | mark sign => exact ⟨trivial, counts.fits.symm⟩
  | text =>
      obtain ⟨body, units, rfl⟩ := counts.fits
      simpa [token, Token.Genuine, Token.spelling] using units
  | hex =>
      have shaped : isHexWord matched = true := counts.fits
      simpa [token, Token.Genuine, Token.spelling] using shaped
  | int =>
      have signed : SignedDigits matched := counts.fits
      simpa [token, Token.Genuine, Token.spelling] using signed
  | ident =>
      -- The rules for keywords and numbers go before the one for names, so they do not match.
      have unmatched : ∀ other : TokenRule, other.rank < ident.rank → ¬ other.Matches matched :=
        fun other less fits => Nat.not_le_of_lt less (counts.first other fits)
      obtain ⟨filled, wordy⟩ := counts.fits
      refine ⟨⟨?_, ?_, ?_, ?_, ?_⟩, String.toList_ofList⟩
      · rwa [String.toList_ofList]
      · rwa [String.toList_ofList]
      · intro word same
        apply unmatched (.keyword word) (Nat.succ_pos 2)
        exact String.toList_ofList.symm.trans (congrArg String.toList same)
      · rw [String.toList_ofList, ← Bool.not_eq_true]
        exact unmatched .hex (by decide)
      · rw [String.toList_ofList, ← Bool.not_eq_true]
        exact fun shaped => unmatched .int (by decide) (.plain shaped)

def ofToken : Token → TokenRule
  | .keyword word => keyword word
  | .mark sign => mark sign
  | .text _ => text
  | .hex _ => hex
  | .int _ => int
  | .ident _ => ident

theorem matches_of_genuine {word : Token} (genuine : word.Genuine) :
    (ofToken word).Matches word.spelling.toList ∧
      (ofToken word).token word.spelling.toList = word := by
  cases word with
  | keyword | mark => exact ⟨rfl, rfl⟩
  | text body =>
      have spelled : (Token.text body).spelling.toList = '"' :: body.toList ++ ['"'] := by
        simp [Token.spelling]
      refine ⟨⟨body.toList, genuine, spelled⟩, ?_⟩
      rw [spelled]
      simp [ofToken, token]
  | hex digits => exact ⟨genuine, congrArg Token.hex String.ofList_toList⟩
  | int digits => exact ⟨genuine, congrArg Token.int String.ofList_toList⟩
  | ident name =>
      exact ⟨⟨genuine.filled, genuine.wordy⟩, congrArg Token.ident String.ofList_toList⟩

theorem of_token_token (rule : TokenRule) (matched : List Char) :
    ofToken (rule.token matched) = rule := by
  cases rule <;> rfl

theorem eq_of_genuine {left right : Token} (genuine : left.Genuine) (genuine' : right.Genuine)
    (same : left.spelling.toList = right.spelling.toList) : left = right := by
  have read := Token.scan_iff.2 ⟨genuine, show ∀ char, [].head? = some char → _ from nofun⟩
  have read' := Token.scan_iff.2 ⟨genuine', show ∀ char, [].head? = some char → _ from nofun⟩
  rw [same, read'] at read
  exact (Prod.mk.inj (Option.some.inj read)).1.symm

theorem exists_counts {rule : TokenRule} {matched : List Char} (fits : rule.Matches matched) :
    ∃ best : TokenRule, best.Counts matched := by
  induction least : rule.rank using Nat.strongRecOn generalizing rule with
  | ind rank induction =>
      by_cases first : ∀ other : TokenRule, other.Matches matched → rule.rank ≤ other.rank
      · exact ⟨rule, fits, first⟩
      · obtain ⟨other, less⟩ := Classical.not_forall.1 first
        obtain ⟨fits', less⟩ := Classical.not_imp.1 less
        exact induction other.rank (least ▸ Nat.lt_of_not_le less) fits' rfl

/-- The rule for a token counts for its spelling, since the one that counts makes the same token. -/
theorem counts_of_genuine {word : Token} (genuine : word.Genuine) :
    (ofToken word).Counts word.spelling.toList := by
  obtain ⟨best, counts⟩ := exists_counts (matches_of_genuine genuine).1
  obtain ⟨genuine', spelled⟩ := counts.genuine
  have same := eq_of_genuine genuine' genuine spelled
  rwa [← same, of_token_token, spelled]

/-- What is read off the front of a text is what some rule takes there. -/
theorem scan_iff_takes {input rest : List Char} {word : Token} :
    Token.scan? input = some (word, rest) ↔ ∃ (rule : TokenRule) (matched : List Char),
      input = matched ++ rest ∧ rule.Takes matched rest ∧ word = rule.token matched := by
  constructor
  · intro found
    have split := Token.scan_spelling found
    have genuine := (Token.genuine_of_scan found).1
    refine ⟨ofToken word, word.spelling.toList, split.symm,
      ⟨counts_of_genuine genuine, fun other front back same fits => ?_⟩,
      (matches_of_genuine genuine).2.symm⟩
    obtain ⟨word', after, found', shorter⟩ := fits.spelling.scan back
    rw [← same, split, found] at found'
    obtain ⟨-, rfl⟩ := Prod.mk.inj (Option.some.inj found')
    have lengths := congrArg List.length same
    simp only [List.length_append] at lengths
    omega
  · rintro ⟨rule, matched, rfl, takes, rfl⟩
    obtain ⟨genuine, spelled⟩ := takes.counts.genuine
    obtain ⟨word', after, found, shorter⟩ := takes.counts.fits.spelling.scan rest
    have split := Token.scan_spelling found
    have genuine' := (Token.genuine_of_scan found).1
    have least := takes.longest _ _ _ split.symm (matches_of_genuine genuine').1
    have lengths := congrArg List.length split
    simp only [List.length_append] at lengths
    obtain ⟨spelled', rfl⟩ := List.append_inj split (by omega)
    rw [eq_of_genuine genuine genuine' (spelled.trans spelled'.symm)]
    exact found

/-- No token is read just where no rule matches anything. -/
theorem scan_eq_none_iff {input : List Char} : Token.scan? input = none ↔
    ∀ (rule : TokenRule) (front back : List Char), input = front ++ back →
      ¬ rule.Matches front := by
  constructor
  · rintro none rule front back rfl fits
    obtain ⟨word, after, found, -⟩ := fits.spelling.scan back
    rw [none] at found
    cases found
  · intro unmatched
    refine Option.eq_none_iff_forall_ne_some.2 fun ⟨word, rest⟩ found => ?_
    have genuine := (Token.genuine_of_scan found).1
    exact unmatched _ _ rest (Token.scan_spelling found).symm (matches_of_genuine genuine).1

end TokenRule

open TokenRule

/-- The text is cut by the rules as far as the rest: blanks are skipped, and wherever there is
something else, the lexeme of what a rule takes comes next. -/
inductive RuleCut (rest : List Char) : Nat → List Char → List Lexeme → Prop
  | done {offset : Nat} : RuleCut rest offset rest []
  | blank {offset : Nat} {char : Char} {text : List Char} {lexemes : List Lexeme} :
      isBlank char = true → RuleCut rest (offset + 1) text lexemes →
      RuleCut rest offset (char :: text) lexemes
  | token {offset : Nat} {rule : TokenRule} {matched after : List Char} {lexemes : List Lexeme} :
      rule.Takes matched after → RuleCut rest (offset + byteCount matched) after lexemes →
      RuleCut rest offset (matched ++ after)
        (⟨rule.token matched, offset, offset + byteCount matched⟩ :: lexemes)

/-- What the rules cut off in front of a rest is what the program makes of the text. -/
theorem RuleCut.scan {rest text : List Char} {offset : Nat} {lexemes : List Lexeme}
    (cut : RuleCut rest offset text lexemes) : ∃ front, text = front ++ rest ∧
      Lexeme.scanFrom offset text =
        (Lexeme.scanFrom (offset + byteCount front) rest).map (lexemes ++ ·) := by
  induction cut with
  | @done offset =>
      refine ⟨[], rfl, ?_⟩
      rw [show byteCount [] = 0 from rfl, Nat.add_zero]
      cases Lexeme.scanFrom offset rest <;> rfl
  | @blank offset char _ _ blank _ induction =>
      obtain ⟨front, rfl, scanned⟩ := induction
      refine ⟨char :: front, rfl, ?_⟩
      rw [Lexeme.scan_from_blank blank, scanned, byte_count_blank blank, Nat.add_assoc]
  | @token offset rule matched _ _ takes _ induction =>
      obtain ⟨front, rfl, scanned⟩ := induction
      obtain ⟨genuine, spelled⟩ := takes.counts.genuine
      refine ⟨matched ++ front, (List.append_assoc _ _ _).symm, ?_⟩
      have found := scan_iff_takes.2 ⟨rule, matched, rfl, takes, rfl⟩
      have size : (rule.token matched).spelling.utf8ByteSize = byteCount matched := by
        rw [← byte_count_to_list, spelled]
      rw [Lexeme.scan_from_step found, size, scanned, byte_count_append, ← Nat.add_assoc]
      cases Lexeme.scanFrom (offset + byteCount matched + byteCount front) rest <;> rfl

theorem TokenRule.Stuck.scan {rest : List Char} (stuck : Stuck rest) (offset : Nat) :
    Lexeme.scanFrom offset rest = .error ⟨String.ofList (strayText rest), offset⟩ := by
  obtain ⟨⟨char, tail, rfl, visible⟩, unmatched⟩ := stuck
  have none := scan_eq_none_iff.2 unmatched
  rw [Lexeme.scanFrom, if_neg (by simp [visible])]
  split
  case h_1 => rfl
  case h_2 found =>
    rw [none] at found
    cases found

theorem TokenRule.stuck_of_scan {char : Char} {rest : List Char} (visible : ¬ isBlank char = true)
    (none : Token.scan? (char :: rest) = none) : Stuck (char :: rest) where
  visible := ⟨char, rest, rfl, eq_false_of_ne_true visible⟩
  unmatched := scan_eq_none_iff.1 none

theorem TokenRule.Stuck.filled {rest : List Char} (stuck : Stuck rest) : rest ≠ [] := by
  obtain ⟨char, tail, rfl, -⟩ := stuck.visible
  exact List.cons_ne_nil char tail

/-- The rules cut every text, up to its end or to a place where they are stuck. -/
theorem exists_rule_cut (offset : Nat) (text : List Char) : ∃ rest lexemes,
    RuleCut rest offset text lexemes ∧ (rest = [] ∨ Stuck rest) := by
  fun_induction Lexeme.scanFrom offset text with
  | case1 offset => exact ⟨[], [], .done, .inl rfl⟩
  | case2 offset char rest blank induction =>
      obtain ⟨left, lexemes, cut, ends⟩ := induction
      exact ⟨left, lexemes, .blank blank cut, ends⟩
  | case3 offset char rest visible none =>
      exact ⟨char :: rest, [], .done, .inr (stuck_of_scan visible none)⟩
  | case4 | case5 =>
      rename_i offset char rest visible word after found stop _ _ induction
      obtain ⟨left, lexemes, cut, ends⟩ := induction
      obtain ⟨rule, matched, split, takes, rfl⟩ := scan_iff_takes.1 found
      have size : stop = offset + byteCount matched := by
        rw [← takes.counts.genuine.2, byte_count_to_list]
      rw [split]
      rw [size] at cut
      exact ⟨left, _, .token takes cut, ends⟩

/-- A source is cut just as the rules say, and cutting it fails just where they are stuck. -/
theorem Lexeme.of_source_iff_rule_cut {source : String} :
    (∀ lexemes, ofSource source = .ok lexemes ↔ RuleCut [] 0 source.toList lexemes) ∧
    ∀ error, ofSource source = .error error ↔ ∃ front rest lexemes, source.toList = front ++ rest ∧
      RuleCut rest 0 source.toList lexemes ∧ Stuck rest ∧
      error = ⟨String.ofList (strayText rest), byteCount front⟩ := by
  have whole : ∀ {lexemes}, RuleCut [] 0 source.toList lexemes → ofSource source = .ok lexemes := by
    intro lexemes cut
    obtain ⟨front, -, scanned⟩ := cut.scan
    rw [ofSource, scanned, scanFrom]
    exact congrArg Except.ok (List.append_nil lexemes)
  have stuck : ∀ {rest lexemes}, RuleCut rest 0 source.toList lexemes → Stuck rest →
      ∃ front, source.toList = front ++ rest ∧
        ofSource source = .error ⟨String.ofList (strayText rest), byteCount front⟩ := by
    intro rest lexemes cut stuck
    obtain ⟨front, split, scanned⟩ := cut.scan
    rw [stuck.scan, Nat.zero_add] at scanned
    exact ⟨front, split, scanned⟩
  obtain ⟨rest, lexemes, cut, ends⟩ := exists_rule_cut 0 source.toList
  constructor
  · intro lexemes'
    refine ⟨fun scanned => ?_, whole⟩
    rcases ends with rfl | ends
    · obtain rfl := Except.ok.inj ((whole cut).symm.trans scanned)
      exact cut
    · obtain ⟨front, -, failed⟩ := stuck cut ends
      rw [failed] at scanned
      cases scanned
  · intro error
    constructor
    · intro failed
      rcases ends with rfl | ends
      · rw [whole cut] at failed
        cases failed
      · obtain ⟨front, split, failed'⟩ := stuck cut ends
        obtain rfl := Except.error.inj (failed'.symm.trans failed)
        exact ⟨front, rest, lexemes, split, cut, ends, rfl⟩
    · rintro ⟨front, rest', lexemes', split, cut', ends', rfl⟩
      obtain ⟨front', split', failed⟩ := stuck cut' ends'
      obtain rfl := List.append_cancel_right (split.symm.trans split')
      exact failed

end KernelMenu

import KernelMenu.Proofs.LongestToken
import KernelMenu.Proofs.SourceTiling

/-!
Words and numbers in a source. A run of word characters that goes on to neither side is one token,
told by the whole run; only behind a minus sign its leading digits belong to the number of the sign,
and what is left of it is a token of its own.
-/

namespace KernelMenu

open TokenRule

/-- What a word is: the keyword that it spells, else a number if it has the form of one, else a
name. -/
inductive Token.Classified (word : List Char) : Token → Prop
  | keyword (reserved : Keyword) : word = reserved.spelling.toList →
      Classified word (.keyword reserved)
  | hex : (∀ reserved : Keyword, word ≠ reserved.spelling.toList) → isHexWord word = true →
      Classified word (.hex (String.ofList word))
  | int : (∀ reserved : Keyword, word ≠ reserved.spelling.toList) → isHexWord word = false →
      isDecimalWord word = true → Classified word (.int (String.ofList word))
  | ident : (∀ reserved : Keyword, word ≠ reserved.spelling.toList) → isHexWord word = false →
      isDecimalWord word = false → Classified word (.ident (String.ofList word))

theorem Token.classified_of_word (word : List Char) : Classified word (ofWord word) := by
  unfold ofWord
  split
  case h_1 reserved found => exact .keyword reserved (Keyword.spelling_of_word found).symm
  case h_2 none =>
    have unreserved : ∀ reserved : Keyword, word ≠ reserved.spelling.toList := by
      rintro reserved rfl
      rw [Keyword.of_word_spelling] at none
      cases none
    split
    case isTrue shaped => exact .hex unreserved shaped
    case isFalse notHex =>
      rw [Bool.not_eq_true] at notHex
      split
      case isTrue shaped => exact .int unreserved notHex shaped
      case isFalse notDecimal =>
        rw [Bool.not_eq_true] at notDecimal
        exact .ident unreserved notHex notDecimal

/-- A run of word characters between two texts, with a minus sign if there is one in front of it.
It goes on to neither side. -/
structure WordRun (before minus run after : List Char) : Prop where
  filled : run ≠ []
  wordy : ∀ char ∈ run, isWordChar char = true
  starts : minus = ['-'] ∨
    minus = [] ∧ ∀ char, before.getLast? = some char → isWordChar char = false ∧ char ≠ '-'
  stops : ∀ char, after.head? = some char → isWordChar char = false

inductive RunTokens : List Char → List Token → Prop
  | word {run : List Char} {token : Token} : (∀ char ∈ run, isWordChar char = true) →
      Token.Classified run token → RunTokens run [token]
  | negative {digits : List Char} : isDecimalWord digits = true →
      RunTokens ('-' :: digits) [.int (String.ofList ('-' :: digits))]
  | split {digits word : List Char} {token : Token} : isDecimalWord digits = true → word ≠ [] →
      (∀ char ∈ word, isWordChar char = true) →
      (∀ char, word.head? = some char → char.isDigit = false) → Token.Classified word token →
      RunTokens ('-' :: digits ++ word) [.int (String.ofList ('-' :: digits)), token]

namespace Lexeme

/-- The lexemes of tokens that stand right behind each other. -/
def inRow (start : Nat) : List Token → List Lexeme
  | [] => []
  | token :: tokens =>
      let stop := start + token.spelling.utf8ByteSize
      ⟨token, start, stop⟩ :: inRow stop tokens

/-- The lexemes between two offsets are just these, and none reaches across one of the offsets. -/
def Between (lexemes : List Lexeme) (start stop : Nat) (inside : List Lexeme) : Prop :=
  ∃ front back, lexemes = front ++ inside ++ back ∧ (∀ lexeme ∈ front, lexeme.stop ≤ start) ∧
    ∀ lexeme ∈ back, stop ≤ lexeme.start

theorem across {source : String} {lexeme : Lexeme} {before rest : List Char}
    (stands : StandsAt source lexeme.start lexeme.stop lexeme.token.spelling)
    (split : source.toList = before ++ rest) (starts : lexeme.start < byteCount before)
    (stops : byteCount before < lexeme.stop) : ∃ front back,
      lexeme.token.spelling.toList = front ++ back ∧ front ≠ [] ∧ back ≠ [] ∧
      front.getLast? = before.getLast? ∧ back.head? = rest.head? ∧
      lexeme.stop = byteCount before + byteCount back := by
  obtain ⟨ahead, behind, rfl, start, stop⟩ := stands
  rw [String.utf8ByteSize_append, start] at stop
  rw [← byte_count_to_list] at start stop
  rw [String.toList_append, String.toList_append, List.append_assoc] at split
  rcases List.append_eq_append_iff.1 split with ⟨front, rfl, inner⟩ | ⟨spill, same, -⟩
  · rw [byte_count_append] at starts stops
    have filled : front ≠ [] := by
      rintro rfl
      rw [show byteCount [] = 0 from rfl] at starts
      omega
    rcases List.append_eq_append_iff.1 inner with ⟨spill, same, -⟩ | ⟨back, same, rfl⟩
    · rw [same, byte_count_append] at stops
      omega
    · have size := byte_count_append front back
      rw [← same] at size
      have filled' : back ≠ [] := by
        rintro rfl
        rw [show byteCount [] = 0 from rfl] at size
        omega
      refine ⟨front, back, same, filled, filled', ?_, ?_, ?_⟩
      · rw [List.getLast?_append_of_ne_nil _ filled]
      · rw [List.head?_append_of_ne_nil _ filled']
      · rw [byte_count_append]
        omega
  · rw [same, byte_count_append] at start
    omega

theorem parted_at {lexemes : List Lexeme} {offset : Nat}
    (filled : ∀ lexeme ∈ lexemes, lexeme.start < lexeme.stop)
    (ordered : lexemes.Pairwise fun left right => left.stop ≤ right.start)
    (apart : ∀ lexeme ∈ lexemes, lexeme.stop ≤ offset ∨ offset ≤ lexeme.start) :
    ∃ front back, lexemes = front ++ back ∧ (∀ lexeme ∈ front, lexeme.stop ≤ offset) ∧
      ∀ lexeme ∈ back, offset ≤ lexeme.start := by
  induction lexemes with
  | nil => exact ⟨[], [], rfl, nofun, nofun⟩
  | cons lexeme lexemes induction =>
      obtain ⟨behind, ordered⟩ := List.pairwise_cons.1 ordered
      obtain ⟨wide, filled⟩ := List.forall_mem_cons.1 filled
      obtain ⟨own, apart⟩ := List.forall_mem_cons.1 apart
      rcases own with early | late
      · obtain ⟨front, back, rfl, before, after⟩ := induction filled ordered apart
        exact ⟨lexeme :: front, back, rfl, List.forall_mem_cons.2 ⟨early, before⟩, after⟩
      · refine ⟨[], lexeme :: lexemes, rfl, nofun, List.forall_mem_cons.2 ⟨late, ?_⟩⟩
        intro other member
        have later := behind other member
        omega

theorem peel {offset : Nat} {input after : List Char} {token : Token} {lexemes : List Lexeme}
    (found : Token.scan? input = some (token, after))
    (scanned : scanFrom offset input = .ok lexemes) : ∃ others,
      lexemes = inRow offset [token] ++ others ∧
      scanFrom (offset + token.spelling.utf8ByteSize) after = .ok others ∧
      ∀ lexeme ∈ others, offset + token.spelling.utf8ByteSize ≤ lexeme.start := by
  rw [scan_from_step found] at scanned
  cases rest : scanFrom (offset + token.spelling.utf8ByteSize) after with
  | error error =>
      rw [rest] at scanned
      cases scanned
  | ok others =>
      rw [rest] at scanned
      refine ⟨others, (Except.ok.inj scanned).symm, rfl, fun lexeme member => ?_⟩
      exact ((scan_from_starts rest).1 lexeme member).1

end Lexeme

/-- Two characters next to each other in a token: they are in a text, or both in a word, or a minus
sign and a digit, or the second one goes with a mark. -/
theorem Token.neighbours {token : Token} (genuine : token.Genuine) {front back : List Char}
    {left right : Char} (split : token.spelling.toList = front ++ back)
    (last : front.getLast? = some left) (first : back.head? = some right) :
    (∃ body, token = .text body) ∨ (isWordChar left = true ∧ isWordChar right = true) ∨
      (left = '-' ∧ right.isDigit = true) ∨ (isWordChar right = false ∧ right ≠ '-') := by
  have spelling := (matches_of_genuine genuine).1.spelling
  have inFront := List.mem_of_getLast? last
  have inBack := List.mem_of_head? first
  generalize spelled : token.spelling.toList = chars at spelling split
  cases spelling with
  | word filled wordy =>
      subst split
      exact .inr (.inl ⟨wordy left (List.mem_append_left _ inFront),
        wordy right (List.mem_append_right _ inBack)⟩)
  | mark sign =>
      have marked : sign.spelling.toList.all (fun char => !isWordChar char && char != '-') =
          true := by
        cases sign <;> decide
      have other := List.all_eq_true.1 marked right (split ▸ List.mem_append_right _ inBack)
      exact .inr (.inr (.inr (by simpa using other)))
  | @text body units =>
      have genuine' : (Token.text (String.ofList body)).Genuine := by
        simpa [Token.Genuine] using units
      refine .inl ⟨String.ofList body, eq_of_genuine genuine genuine' ?_⟩
      simpa [Token.spelling] using spelled
  | @negative digits shaped =>
      have decimal := (digits_of_decimal shaped).2
      cases front with
      | nil => cases last
      | cons minus front =>
          obtain ⟨rfl, rfl⟩ := List.cons.inj split
          have digit := decimal right (List.mem_append_right _ inBack)
          cases front with
          | nil => exact .inr (.inr (.inl ⟨(Option.some.inj last).symm, digit⟩))
          | cons other front =>
              rw [List.getLast?_cons_cons] at last
              have inFront := List.mem_append_left back (List.mem_of_getLast? last)
              exact .inr (.inl ⟨word_char_of_digit (decimal left inFront),
                word_char_of_digit digit⟩)

theorem Token.digit_behind_minus {rest after : List Char} {token : Token}
    (found : scan? ('-' :: rest) = some (token, after)) :
    ∃ digit others, rest = digit :: others ∧ digit.isDigit = true := by
  rw [scan?] at found
  split at found
  case isTrue => cases found
  case isFalse filled =>
    cases rest with
    | nil => exact absurd rfl filled
    | cons char rest =>
        by_cases digit : char.isDigit = true
        · exact ⟨char, rest, rfl, digit⟩
        · exact absurd (by simp [digit]) filled

namespace WordRun

variable {before minus run after : List Char}

/-- A text that ended behind a minus sign would end with it, and not with a quote. -/
theorem text_behind_minus {body : String} {front more : List Char}
    (spelled : (Token.text body).spelling.toList = front ++ '-' :: more) : more ≠ [] := by
  rintro rfl
  have ends := congrArg List.getLast? spelled
  rw [Token.spelling, String.toList_append, List.getLast?_append, List.getLast?_append] at ends
  exact absurd ends (by simp)

theorem apart (isRun : WordRun before minus run after) {source : String} {lexeme : Lexeme}
    (split : source.toList = before ++ (minus ++ (run ++ after)))
    (stands : StandsAt source lexeme.start lexeme.stop lexeme.token.spelling)
    (genuine : lexeme.token.Genuine)
    (outside : ∀ body, lexeme.token = .text body →
      ¬ (lexeme.start ≤ byteCount (before ++ minus) ∧ byteCount (before ++ minus) < lexeme.stop)) :
    lexeme.stop ≤ byteCount before ∨ byteCount before ≤ lexeme.start := by
  by_contra reaches
  obtain ⟨stops, starts⟩ := not_or.1 reaches
  obtain ⟨front, back, spelled, filled, filled', last, first, stop⟩ :=
    Lexeme.across stands split (Nat.lt_of_not_le starts) (Nat.lt_of_not_le stops)
  obtain ⟨left, inFront⟩ := Option.ne_none_iff_exists'.1 (mt List.getLast?_eq_none_iff.1 filled)
  obtain ⟨right, inBack⟩ := Option.ne_none_iff_exists'.1 (mt List.head?_eq_none_iff.1 filled')
  have cases := Token.neighbours genuine spelled inFront inBack
  rw [inFront] at last
  rw [inBack] at first
  rcases isRun.starts with rfl | ⟨rfl, starts⟩
  · obtain rfl : right = '-' := Option.some.inj first
    rcases cases with ⟨body, text⟩ | ⟨-, wordy⟩ | ⟨-, digit⟩ | ⟨-, other⟩
    · obtain ⟨more, rfl⟩ := List.head?_eq_some_iff.1 inBack
      rw [text] at spelled
      have goesOn := text_behind_minus spelled
      have size : byteCount ('-' :: more) = 1 + byteCount more := byte_count_append ['-'] more
      have size' : byteCount (before ++ ['-']) = byteCount before + 1 :=
        byte_count_append before ['-']
      have wide := byte_count_pos goesOn
      refine outside body text ⟨?_, ?_⟩ <;> omega
    · exact absurd wordy (by decide)
    · exact absurd digit (by decide)
    · exact other rfl
  · obtain ⟨notWord, notMinus⟩ := starts left last.symm
    have wordy : isWordChar right = true := by
      have inRun : right ∈ run := by
        apply List.mem_of_head?
        rw [List.nil_append, List.head?_append_of_ne_nil _ isRun.filled] at first
        exact first.symm
      exact isRun.wordy right inRun
    rcases cases with ⟨body, text⟩ | ⟨wordy', -⟩ | ⟨minus, -⟩ | ⟨notWord', -⟩
    · rw [List.append_nil] at outside
      refine outside body text ⟨?_, ?_⟩ <;> omega
    · rw [notWord] at wordy'
      cases wordy'
    · exact notMinus minus
    · rw [wordy] at notWord'
      cases notWord'

end WordRun

/-- What is read from a place on are first these tokens in a row, and the rest behind them. -/
def ReadAs (start : Nat) (chars after : List Char) (tokens : List Token) : Prop :=
  ∀ lexemes, Lexeme.scanFrom start (chars ++ after) = .ok lexemes → ∃ others,
    lexemes = Lexeme.inRow start tokens ++ others ∧
    ∀ lexeme ∈ others, start + byteCount chars ≤ lexeme.start

theorem ReadAs.word {run after : List Char} (filled : run ≠ [])
    (wordy : ∀ char ∈ run, isWordChar char = true)
    (stops : ∀ char, after.head? = some char → isWordChar char = false) (start : Nat) :
    ReadAs start run after [.ofWord run] := by
  intro lexemes scanned
  obtain ⟨others, rfl, -, behind⟩ := Lexeme.peel (Token.scan_word filled wordy stops) scanned
  rw [← byte_count_to_list, Token.spelling_of_word] at behind
  exact ⟨others, rfl, behind⟩

/-- Behind a minus sign the number ends with the last digit, and what is left is a word. -/
theorem ReadAs.negative {digits word after : List Char} (shaped : isDecimalWord digits = true)
    (ends : ∀ char, word.head? = some char → char.isDigit = false)
    (wordy : ∀ char ∈ word, isWordChar char = true)
    (stops : ∀ char, after.head? = some char → isWordChar char = false) (start : Nat) :
    ∃ tokens, RunTokens ('-' :: digits ++ word) tokens ∧
      ReadAs start ('-' :: digits ++ word) after tokens := by
  have ends' : ∀ char, (word ++ after).head? = some char → char.isDigit = false := by
    cases word with
    | nil =>
        refine fun char first => Bool.eq_false_iff.2 fun digit => ?_
        have outside := stops char first
        rw [word_char_of_digit digit] at outside
        cases outside
    | cons char word => exact ends
  have found := Token.scan_negative shaped ends'
  rw [← List.append_assoc] at found
  have size : (Token.int (String.ofList ('-' :: digits))).spelling.utf8ByteSize =
      byteCount ('-' :: digits) := by
    rw [← byte_count_to_list, Token.spelling, String.toList_ofList]
  cases word with
  | nil =>
      rw [List.append_nil] at found ⊢
      refine ⟨_, .negative shaped, fun lexemes scanned => ?_⟩
      obtain ⟨others, rfl, -, behind⟩ := Lexeme.peel found scanned
      rw [size] at behind
      exact ⟨others, rfl, behind⟩
  | cons char word =>
      have filled : char :: word ≠ [] := List.cons_ne_nil char word
      refine ⟨_, .split shaped filled wordy ends (Token.classified_of_word (char :: word)),
        fun lexemes scanned => ?_⟩
      obtain ⟨others, rfl, rest, -⟩ := Lexeme.peel found scanned
      rw [size] at rest
      obtain ⟨others', rfl, behind⟩ := ReadAs.word filled wordy stops _ others rest
      rw [byte_count_append, ← Nat.add_assoc]
      refine ⟨others', ?_, behind⟩
      rw [← List.append_assoc, ← size]
      rfl

/-- From where it begins, the run is read as its tokens. -/
theorem WordRun.read {before minus run after : List Char} (isRun : WordRun before minus run after)
    {start : Nat} {lexemes : List Lexeme}
    (scanned : Lexeme.scanFrom start (minus ++ run ++ after) = .ok lexemes) :
    ∃ tokens others, RunTokens (minus ++ run) tokens ∧
      lexemes = Lexeme.inRow start tokens ++ others ∧
      ∀ lexeme ∈ others, start + byteCount (minus ++ run) ≤ lexeme.start := by
  rcases isRun.starts with rfl | ⟨rfl, -⟩
  · obtain ⟨first, -, behind, -, found, -⟩ := Lexeme.scan_from_visible (by decide) scanned
    obtain ⟨digit, others, split, isDigit⟩ := Token.digit_behind_minus found
    have shaped : isDecimalWord (run.takeWhile Char.isDigit) = true := by
      cases run with
      | nil => exact absurd rfl isRun.filled
      | cons char run =>
          obtain ⟨rfl, -⟩ := List.cons.inj split
          simp [isDecimalWord, isDigit]
    have wordy : ∀ char ∈ run.dropWhile Char.isDigit, isWordChar char = true := fun char member =>
      isRun.wordy char ((List.dropWhile_suffix Char.isDigit).subset member)
    obtain ⟨tokens, row, reads⟩ := ReadAs.negative shaped (fun char => Token.head_behind_run) wordy
      isRun.stops start
    rw [List.cons_append, List.takeWhile_append_dropWhile] at row reads
    obtain ⟨others, same, behind⟩ := reads lexemes scanned
    exact ⟨tokens, others, row, same, behind⟩
  · have reads := ReadAs.word isRun.filled isRun.wordy isRun.stops start
    obtain ⟨others, same, behind⟩ := reads lexemes scanned
    exact ⟨_, others, .word isRun.wordy (Token.classified_of_word run), same, behind⟩

/-- Every run of word characters outside the texts of a source is cut by itself. -/
theorem Lexeme.word_run_alone {source : String} {lexemes : List Lexeme}
    {before minus run after : List Char} (scanned : ofSource source = .ok lexemes)
    (split : source.toList = before ++ (minus ++ (run ++ after)))
    (isRun : WordRun before minus run after)
    (outside : ∀ lexeme ∈ lexemes, ∀ body, lexeme.token = .text body →
      ¬ (lexeme.start ≤ byteCount (before ++ minus) ∧ byteCount (before ++ minus) < lexeme.stop)) :
    ∃ tokens, RunTokens (minus ++ run) tokens ∧
      Between lexemes (byteCount before) (byteCount (before ++ minus ++ run))
        (inRow (byteCount before) tokens) := by
  have tiles := tiles_of_scan scanned
  have genuine : ∀ lexeme ∈ lexemes, lexeme.token.Genuine := fun lexeme member =>
    (cut_of_scan scanned).genuine lexeme.token (List.mem_map_of_mem member)
  have apart := fun lexeme member => isRun.apart split (tiles.spelled lexeme member)
    (genuine lexeme member) (outside lexeme member)
  obtain ⟨front, back, rfl, early, late⟩ := parted_at tiles.filled tiles.ordered apart
  rw [ofSource, split] at scanned
  have scanned' := (cut_of_scan_from scanned (by simpa using early) (by simpa using late)).2
  rw [Nat.zero_add, ← List.append_assoc] at scanned'
  obtain ⟨tokens, others, row, rfl, behind⟩ := isRun.read scanned'
  rw [← byte_count_append, ← List.append_assoc] at behind
  exact ⟨tokens, row, front, others, by rw [List.append_assoc], early, behind⟩

/-- Cutting takes the longest text that a rule for tokens matches, wherever it comes to, and fails
only where none matches; so a run of word characters is told as a whole. -/
theorem Lexeme.of_source_longest (source : String) :
    (∀ lexemes, ofSource source = .ok lexemes ↔ RuleCut [] 0 source.toList lexemes) ∧
    (∀ error, ofSource source = .error error ↔ ∃ front rest lexemes,
      source.toList = front ++ rest ∧ RuleCut rest 0 source.toList lexemes ∧ Stuck rest ∧
      error = ⟨String.ofList (strayText rest), byteCount front⟩) ∧
    ∀ lexemes before minus run after, ofSource source = .ok lexemes →
      source.toList = before ++ (minus ++ (run ++ after)) → WordRun before minus run after →
      (∀ lexeme ∈ lexemes, ∀ body, lexeme.token = .text body →
        ¬ (lexeme.start ≤ byteCount (before ++ minus) ∧
          byteCount (before ++ minus) < lexeme.stop)) →
      ∃ tokens, RunTokens (minus ++ run) tokens ∧
        Between lexemes (byteCount before) (byteCount (before ++ minus ++ run))
          (inRow (byteCount before) tokens) := by
  obtain ⟨cuts, fails⟩ := @of_source_iff_rule_cut source
  refine ⟨cuts, fails, ?_⟩
  intro lexemes before minus run after scanned split isRun outside
  exact word_run_alone scanned split isRun outside

/-- A minus sign takes the zero from what would be a hexadecimal number. -/
theorem Lexeme.of_source_longest_minus : ∃ tokens, RunTokens "-0x10".toList tokens ∧
    Lexeme.Between [⟨.keyword .env, 0, 3⟩, ⟨.int "-0", 4, 6⟩, ⟨.ident "x10", 6, 9⟩] 4 9
      (inRow 4 tokens) := by
  refine (of_source_longest "env -0x10").2.2 _ "env ".toList "-".toList "0x10".toList []
    (by decide +kernel) (by decide) ?_ ?_
  · exact ⟨by decide, List.all_eq_true.1 (by decide), .inl rfl, fun _ first => by cases first⟩
  · simp

end KernelMenu

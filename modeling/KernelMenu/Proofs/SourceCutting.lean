import KernelMenu.Proofs.LexemePlace
import KernelMenu.Proofs.TokenReading

/-!
How a source is cut, as a relation between a text and its tokens. Whatever is cut off is a token
that a source can hold, and a text is cut in the same way in front of any rest that a blank parts
from it.
-/

namespace KernelMenu

namespace Token

/-- The character does not belong to the token when it comes right behind it. -/
def stopsAt : Token → Char → Bool
  | .int digits, char =>
      if digits.toList.head? = some '-' then !char.isDigit else !isWordChar char
  | token, char => token.endsAt char

theorem stops_at_of_ends_at {token : Token} {char : Char} (ends : token.endsAt char = true) :
    token.stopsAt char = true := by
  cases token with
  | int digits =>
      simp only [endsAt, Bool.not_eq_true'] at ends
      have other : char.isDigit = false := by
        apply Bool.eq_false_iff.2
        intro digit
        rw [word_char_of_digit digit] at ends
        exact nomatch ends
      simp [stopsAt, ends, other]
  | keyword | mark | text | hex | ident => exact ends

theorem stops_at_blank (token : Token) {char : Char} (blank : isBlank char = true) :
    token.stopsAt char = true := by
  have notWord : isWordChar char = false := by
    rcases blank_cases blank with rfl | rfl | rfl | rfl | rfl <;> decide
  have notEq : char ≠ '=' := by
    rintro rfl
    exact absurd blank (by decide)
  apply stops_at_of_ends_at
  cases token with
  | mark sign => cases sign <;> simp [endsAt, notEq]
  | keyword | text | hex | int | ident => simp [endsAt, notWord]

theorem units_of_run (input : List Char) : TextUnits (textRun input).1 := by
  fun_induction textRun input with
  | case1 => exact .nil
  | case2 char rest escapable run after split induction =>
      rw [split] at induction
      exact .escape escapable induction
  | case3 => exact .nil
  | case4 char rest _ textual run after split induction =>
      rw [split] at induction
      exact .plain textual induction
  | case5 => exact .nil

theorem genuine_of_word {word : List Char} (filled : word ≠ [])
    (wordy : ∀ char ∈ word, isWordChar char = true) : (ofWord word).Genuine := by
  unfold ofWord
  split
  case h_1 => trivial
  case h_2 unreserved =>
    split
    case isTrue shaped => simpa [Genuine] using shaped
    case isFalse notHex =>
      split
      case isTrue decimal =>
        refine .plain ?_
        simpa using decimal
      case isFalse notDecimal =>
        refine ⟨by simpa using filled, by simpa using wordy, ?_, by simpa using notHex,
          by simpa using notDecimal⟩
        intro keyword same
        have spelled := congrArg String.toList same
        rw [String.toList_ofList] at spelled
        rw [spelled, Keyword.of_word_spelling] at unreserved
        cases unreserved

theorem word_stops_at {word : List Char} {char : Char} (outside : isWordChar char = false) :
    (ofWord word).stopsAt char = true := by
  apply stops_at_of_ends_at
  unfold ofWord
  split
  case h_1 => simp [endsAt, outside]
  case h_2 =>
    split
    case isTrue => simp [endsAt, outside]
    case isFalse => split <;> simp [endsAt, outside]

theorem head_behind_run {test : Char → Bool} {input : List Char} {char : Char}
    (first : (input.dropWhile test).head? = some char) : test char = false := by
  have stopped := List.head?_dropWhile_not test input
  rw [first] at stopped
  simpa using stopped

/-- What is read is a token that a source can hold, and the text goes on with another one. -/
theorem genuine_of_scan {input rest : List Char} {token : Token}
    (found : scan? input = some (token, rest)) :
    token.Genuine ∧ ∀ char, rest.head? = some char → token.stopsAt char = true := by
  unfold scan? at found
  split at found
  case h_10 tail unequal =>
    obtain ⟨rfl, rfl⟩ := by simpa using found
    refine ⟨trivial, fun char first => ?_⟩
    have other : char ≠ '=' := by
      intro same
      obtain ⟨after, split⟩ := List.head?_eq_some_iff.1 (same ▸ first)
      exact unequal after split
    simpa [stopsAt, endsAt] using other
  case h_12 tail =>
    split at found
    case h_1 body after split =>
      obtain ⟨rfl, rfl⟩ := by simpa using found
      have units := units_of_run tail
      rw [split] at units
      exact ⟨by simpa [Genuine] using units, fun _ _ => rfl⟩
    case h_2 => cases found
  case h_13 tail =>
    dsimp only at found
    split at found
    case isTrue => cases found
    case isFalse filled =>
      obtain ⟨rfl, rfl⟩ := Prod.mk.inj (Option.some.inj found)
      have decimal : isDecimalWord (tail.takeWhile Char.isDigit) = true := by
        simp only [isDecimalWord, List.all_takeWhile, Bool.and_true]
        simpa using filled
      refine ⟨?_, fun char first => ?_⟩
      · simpa only [Genuine, String.toList_ofList] using SignedDigits.negative decimal
      · simp [stopsAt, head_behind_run first]
  case h_14 =>
    dsimp only at found
    split at found
    case isTrue => cases found
    case isFalse filled =>
      obtain ⟨rfl, rfl⟩ := Prod.mk.inj (Option.some.inj found)
      have wordy := List.all_eq_true.1 (List.all_takeWhile (p := isWordChar) (l := input))
      exact ⟨genuine_of_word (by simpa using filled) wordy,
        fun char first => word_stops_at (head_behind_run first)⟩
  all_goals
    obtain ⟨rfl, rfl⟩ := by simpa using found
    exact ⟨trivial, fun _ _ => rfl⟩

theorem scan_negative {digits rest : List Char} (shaped : isDecimalWord digits = true)
    (ends : ∀ char, rest.head? = some char → char.isDigit = false) :
    scan? ('-' :: digits ++ rest) = some (.int (String.ofList ('-' :: digits)), rest) := by
  obtain ⟨filled, decimal⟩ := digits_of_decimal shaped
  obtain ⟨taken, dropped⟩ := run_of_append decimal ends
  rw [List.cons_append, scan?, taken, dropped, if_neg (by simpa using filled)]

/-- A token is read from its spelling just if the text behind it does not belong to it. -/
theorem scan_iff {token : Token} {rest : List Char} :
    scan? (token.spelling.toList ++ rest) = some (token, rest) ↔
      token.Genuine ∧ ∀ char, rest.head? = some char → token.stopsAt char = true := by
  refine ⟨genuine_of_scan, fun ⟨genuine, stops⟩ => ?_⟩
  cases token with
  | int digits =>
      by_cases negative : digits.toList.head? = some '-'
      · have signed : SignedDigits digits.toList := genuine
        have outside : ∀ char, rest.head? = some char → char.isDigit = false := by
          intro char first
          have stopped := stops char first
          rw [stopsAt, if_pos negative] at stopped
          simpa using stopped
        generalize spelled : digits.toList = chars at signed negative
        cases signed with
        | plain shaped =>
            have minus := (digits_of_decimal shaped).2 '-' (List.mem_of_head? negative)
            exact nomatch minus
        | @negative unsigned shaped =>
            have read := scan_negative shaped outside
            rw [← spelled, String.ofList_toList] at read
            exact read
      · refine scan_of_spelling genuine fun char first => ?_
        have outside := stops char first
        rw [stopsAt, if_neg negative] at outside
        exact outside
  | keyword | mark | text | hex | ident => exact scan_of_spelling genuine stops

end Token

inductive Cut (rest : List Char) : List Char → List Token → Prop
  | done : Cut rest rest []
  | blank {char : Char} {text : List Char} {words : List Token} :
      isBlank char = true → Cut rest text words → Cut rest (char :: text) words
  | token {text after : List Char} {word : Token} {words : List Token} :
      Token.scan? text = some (word, after) → Cut rest after words → Cut rest text (word :: words)

namespace Cut

variable {rest middle text : List Char} {words words' : List Token}

theorem append (first : Cut middle text words) (second : Cut rest middle words') :
    Cut rest text (words ++ words') := by
  induction first with
  | done => exact second
  | blank blank _ induction => exact .blank blank induction
  | token found _ induction => exact .token found induction

theorem genuine (cut : Cut rest text words) : ∀ word ∈ words, word.Genuine := by
  induction cut with
  | done => exact nofun
  | blank _ _ induction => exact induction
  | token found _ induction =>
      exact List.forall_mem_cons.2 ⟨(Token.genuine_of_scan found).1, induction⟩

/-- Where a blank parts a text from its rest, any other rest may stand behind the blank. -/
theorem before_blank (cut : Cut rest text words) : ∃ front, text = front ++ rest ∧
    ∀ rest', (∀ char, rest'.head? = some char → isBlank char = true) →
      Cut rest' (front ++ rest') words := by
  induction cut with
  | done => exact ⟨[], rfl, fun _ _ => .done⟩
  | @blank char _ _ blank _ induction =>
      obtain ⟨front, rfl, cuts⟩ := induction
      exact ⟨char :: front, rfl, fun rest' blanks => .blank blank (cuts rest' blanks)⟩
  | @token _ _ word _ found _ induction =>
      obtain ⟨front, rfl, cuts⟩ := induction
      have whole := Token.scan_spelling found
      refine ⟨word.spelling.toList ++ front, by rw [← whole, List.append_assoc], ?_⟩
      intro rest' blanks
      rw [← whole] at found
      obtain ⟨genuine, stops⟩ := Token.scan_iff.1 found
      rw [List.append_assoc]
      -- Only the last token has the new rest behind it; the others see the old text.
      refine .token (Token.scan_iff.2 ⟨genuine, fun char first => ?_⟩) (cuts rest' blanks)
      cases front with
      | nil => exact word.stops_at_blank (blanks char first)
      | cons other front => exact stops char first

theorem in_front {front rest' : List Char} (cut : Cut rest (front ++ rest) words)
    (blanks : ∀ char, rest'.head? = some char → isBlank char = true) :
    Cut rest' (front ++ rest') words := by
  obtain ⟨front', same, cuts⟩ := cut.before_blank
  rw [List.append_cancel_right same]
  exact cuts rest' blanks

theorem of_spaced {words : List Token} (genuine : ∀ word ∈ words, word.Genuine) :
    Cut [] ([' '].intercalate (words.map fun word => word.spelling.toList)) words := by
  induction words with
  | nil => exact .done
  | cons word words induction =>
      obtain ⟨first, others⟩ := List.forall_mem_cons.1 genuine
      cases words with
      | nil =>
          have stops : ∀ char, [].head? = some char → word.stopsAt char = true := nofun
          simpa using Cut.token (Token.scan_iff.2 ⟨first, stops⟩) .done
      | cons next words =>
          rw [List.map_cons, List.map_cons, List.intercalate_cons_cons, List.append_assoc]
          refine .token (Token.scan_iff.2 ⟨first, ?_⟩) (.blank rfl (induction others))
          rintro char ⟨⟩
          exact word.stops_at_blank rfl

/-- A cut is what the program makes of the text. -/
theorem scan (cut : Cut rest text words) (start : Nat) : ∃ lexemes stop,
    lexemes.map Lexeme.token = words ∧ ∀ others, Lexeme.scanFrom stop rest = .ok others →
      Lexeme.scanFrom start text = .ok (lexemes ++ others) := by
  induction cut generalizing start with
  | done => exact ⟨[], start, rfl, fun _ scanned => scanned⟩
  | blank blank _ induction =>
      obtain ⟨lexemes, stop, same, scans⟩ := induction (start + 1)
      refine ⟨lexemes, stop, same, fun others scanned => ?_⟩
      rw [Lexeme.scan_from_blank blank, scans others scanned]
  | @token _ _ word _ found _ induction =>
      obtain ⟨lexemes, stop, same, scans⟩ := induction (start + word.spelling.utf8ByteSize)
      refine ⟨⟨word, start, start + word.spelling.utf8ByteSize⟩ :: lexemes, stop, ?_, ?_⟩
      · rw [List.map_cons, same]
      · exact fun others scanned => Lexeme.scan_from_token found (scans others scanned)

end Cut

namespace Lexeme

theorem start_lt_stop {start : Nat} {input : List Char} {lexemes : List Lexeme}
    (scanned : scanFrom start input = .ok lexemes) : ∀ lexeme ∈ lexemes,
      lexeme.start < lexeme.stop := by
  fun_induction scanFrom start input generalizing lexemes with
  | case1 =>
      cases scanned
      exact List.forall_mem_nil _
  | case2 _ _ _ _ induction => exact induction scanned
  | case3 => cases scanned
  | case4 =>
      rename_i found stop others scanned' induction
      cases scanned
      have filled := byte_count_pos (Token.scan_spelling_ne_nil found)
      rw [byte_count_to_list] at filled
      exact List.forall_mem_cons.2 ⟨Nat.lt_add_of_pos_right filled, induction scanned'⟩
  | case5 => cases scanned

theorem scan_from_visible {start : Nat} {char : Char} {rest : List Char} {lexemes : List Lexeme}
    (visible : ¬ isBlank char = true) (scanned : scanFrom start (char :: rest) = .ok lexemes) :
    ∃ first others after, lexemes = first :: others ∧
      Token.scan? (char :: rest) = some (first.token, after) ∧ first.start = start ∧
      first.stop = start + byteCount first.token.spelling.toList ∧
      scanFrom first.stop after = .ok others := by
  rw [scanFrom, if_neg visible] at scanned
  split at scanned
  case h_1 => cases scanned
  case h_2 token after found =>
    dsimp only at scanned
    split at scanned
    case h_1 others scanned' =>
      cases scanned
      refine ⟨_, others, after, rfl, found, rfl, ?_, scanned'⟩
      rw [byte_count_to_list]
    case h_2 => cases scanned

theorem rest_of_token {text rest spelling after : List Char}
    (split : spelling ++ after = text ++ rest) (within : byteCount spelling ≤ byteCount text) :
    ∃ spill, text = spelling ++ spill ∧ after = spill ++ rest := by
  rcases List.append_eq_append_iff.1 split with ⟨spill, whole, same⟩ | ⟨spill, whole, same⟩
  · exact ⟨spill, whole, same⟩
  · rcases spill with _ | ⟨char, spill⟩
    · exact ⟨[], by simpa using whole.symm, by simpa using same.symm⟩
    · have size := byte_count_append text (char :: spill)
      have longer := byte_count_pos (List.cons_ne_nil char spill)
      rw [← whole] at size
      omega

theorem scan_in_front {start stop : Nat} {token : Token} {text rest after : List Char}
    (found : Token.scan? (text ++ rest) = some (token, after))
    (stops : stop = start + byteCount token.spelling.toList)
    (within : stop ≤ start + byteCount text) :
    ∃ spill, after = spill ++ rest ∧ spill.length < text.length ∧
      stop + byteCount spill = start + byteCount text := by
  have inside : byteCount token.spelling.toList ≤ byteCount text := by omega
  obtain ⟨spill, whole, rfl⟩ := rest_of_token (Token.scan_spelling found) inside
  refine ⟨spill, rfl, ?_, ?_⟩
  · have wide := List.length_pos_iff.2 (Token.scan_spelling_ne_nil found)
    rw [whole, List.length_append]
    omega
  · rw [whole, byte_count_append, stops, Nat.add_assoc]

/-- Lexemes that stop in front of a place and lexemes that start behind it make two cuts. -/
theorem cut_of_scan_from {start : Nat} {text rest : List Char} {front back : List Lexeme}
    (scanned : scanFrom start (text ++ rest) = .ok (front ++ back))
    (before : ∀ lexeme ∈ front, lexeme.stop ≤ start + byteCount text)
    (behind : ∀ lexeme ∈ back, start + byteCount text ≤ lexeme.start) :
    Cut rest (text ++ rest) (front.map token) ∧
      scanFrom (start + byteCount text) rest = .ok back := by
  induction length : text.length using Nat.strongRecOn generalizing start text front with
  | ind count induction =>
  cases text with
  | nil =>
      have empty : byteCount [] = 0 := rfl
      cases front with
      | nil => exact ⟨.done, scanned⟩
      | cons first front =>
          have later := (scan_from_starts scanned).1 first List.mem_cons_self
          have wide := start_lt_stop scanned first List.mem_cons_self
          have bound := before first List.mem_cons_self
          omega
  | cons char text =>
      by_cases blank : isBlank char = true
      · have size := byte_count_blank blank text
        rw [List.cons_append, scan_from_blank blank] at scanned
        have shorter : text.length < count := by
          rw [← length]
          exact Nat.lt_succ_self _
        rw [size, ← Nat.add_assoc] at before behind
        obtain ⟨cut, later⟩ := induction _ shorter scanned before behind rfl
        rw [size, ← Nat.add_assoc]
        exact ⟨.blank blank cut, later⟩
      · obtain ⟨first, others, after, split, found, starts, stops, scanned'⟩ :=
          scan_from_visible blank scanned
        have filled := byte_count_pos (List.cons_ne_nil char text)
        -- The token belongs to the first cut, since it starts in front of the place.
        cases front with
        | nil =>
            rw [List.nil_append] at split
            have bound := behind first (by rw [split]; exact List.mem_cons_self)
            omega
        | cons other front =>
            obtain ⟨rfl, rfl⟩ := List.cons.inj split
            have bound := before other List.mem_cons_self
            obtain ⟨spill, rfl, shorter, level⟩ := scan_in_front found stops bound
            rw [length] at shorter
            rw [← level] at before behind ⊢
            obtain ⟨cut, later⟩ := induction _ shorter scanned'
              (fun lexeme member => before lexeme (List.mem_cons_of_mem _ member)) behind rfl
            exact ⟨.token found cut, later⟩

theorem cut_of_scan {start : Nat} {input : List Char} {lexemes : List Lexeme}
    (scanned : scanFrom start input = .ok lexemes) : Cut [] input (lexemes.map token) := by
  fun_induction scanFrom start input generalizing lexemes with
  | case1 =>
      cases scanned
      exact .done
  | case2 _ _ _ blank induction => exact .blank blank (induction scanned)
  | case3 => cases scanned
  | case4 =>
      rename_i found stop others scanned' induction
      cases scanned
      exact .token found (induction scanned')
  | case5 => cases scanned

end Lexeme

theorem Token.of_source_iff {source : String} {words : List Token} :
    Token.ofSource source = .ok words ↔ Cut [] source.toList words := by
  unfold ofSource
  constructor
  · intro read
    cases scanned : Lexeme.ofSource source with
    | error error =>
        rw [scanned] at read
        exact nomatch read
    | ok lexemes =>
        rw [scanned] at read
        obtain rfl := Except.ok.inj read
        exact Lexeme.cut_of_scan scanned
  · intro cut
    obtain ⟨lexemes, stop, same, scans⟩ := cut.scan 0
    have scanned : Lexeme.ofSource source = .ok (lexemes ++ []) :=
      scans [] (by rw [Lexeme.scanFrom])
    rw [scanned, List.append_nil]
    exact congrArg Except.ok same

end KernelMenu

import KernelMenu.Lexeme

/-!
The tokens that a source can hold, and that each of them is read back from its spelling, as long as
what comes next does not carry the token on.
-/

namespace KernelMenu

/-- A word that is neither reserved nor a number. -/
structure PlainName (name : String) : Prop where
  filled : name.toList ≠ []
  wordy : ∀ char ∈ name.toList, isWordChar char = true
  free : ∀ keyword : Keyword, name ≠ keyword.spelling
  notHex : isHexWord name.toList = false
  notDecimal : isDecimalWord name.toList = false

inductive TextUnits : List Char → Prop
  | nil : TextUnits []
  | plain {char : Char} {rest : List Char} :
      isTextChar char = true → TextUnits rest → TextUnits (char :: rest)
  | escape {char : Char} {rest : List Char} :
      isEscapable char = true → TextUnits rest → TextUnits ('\\' :: char :: rest)

inductive SignedDigits : List Char → Prop
  | plain {digits : List Char} : isDecimalWord digits = true → SignedDigits digits
  | negative {digits : List Char} : isDecimalWord digits = true → SignedDigits ('-' :: digits)

/-- A token that can come from a source. -/
def Token.Genuine : Token → Prop
  | .keyword _ | .mark _ => True
  | .text body => TextUnits body.toList
  | .hex digits => isHexWord digits.toList = true
  | .int digits => SignedDigits digits.toList
  | .ident name => PlainName name

theorem Token.genuine_keyword (word : Keyword) : (Token.keyword word).Genuine := trivial

theorem Token.genuine_mark (sign : Mark) : (Token.mark sign).Genuine := trivial

/-- The character does not carry the token on. -/
def Token.endsAt : Token → Char → Bool
  | .mark .not, char => char ≠ '='
  | .mark _, _ | .text _, _ => true
  | .keyword _, char | .hex _, char | .int _, char | .ident _, char => !isWordChar char

section Runs

variable {Item : Type} {front front' rest rest' : List Item}

theorem run_of_append {test : Item → Bool} (inside : ∀ item ∈ front, test item = true)
    (outside : ∀ item, rest.head? = some item → test item = false) :
    (front ++ rest).takeWhile test = front ∧ (front ++ rest).dropWhile test = rest := by
  rw [List.takeWhile_append_of_pos inside, List.dropWhile_append_of_pos inside]
  cases rest with
  | nil => simp
  | cons item rest => simp [outside item rfl]

/-- There is one way at most to cut a list behind such a run. -/
theorem run_cancel (test : Item → Bool) (same : front ++ rest = front' ++ rest')
    (inside : ∀ item ∈ front, test item = true) (inside' : ∀ item ∈ front', test item = true)
    (outside : ∀ item, rest.head? = some item → test item = false)
    (outside' : ∀ item, rest'.head? = some item → test item = false) :
    front = front' ∧ rest = rest' := by
  obtain ⟨taken, dropped⟩ := run_of_append inside outside
  obtain ⟨taken', dropped'⟩ := run_of_append inside' outside'
  rw [same] at taken dropped
  exact ⟨taken.symm.trans taken', dropped.symm.trans dropped'⟩

end Runs

section Characters

theorem word_char_of_digit {char : Char} (digit : char.isDigit = true) :
    isWordChar char = true := by
  simp [isWordChar, Char.isAlphanum, digit]

theorem word_char_of_hex_digit {char : Char} (digit : isHexDigit char = true) :
    isWordChar char = true := by
  have letter : char.isUpper = true ∨ char.isLower = true → isWordChar char = true := by
    intro cased
    have alpha : char.isAlpha = true := (Bool.or_eq_true _ _).mpr cased
    simp [isWordChar, Char.isAlphanum, alpha]
  simp only [isHexDigit, Bool.or_eq_true, Bool.and_eq_true, decide_eq_true_eq] at digit
  rcases digit with (digit | ⟨least, most⟩) | ⟨least, most⟩
  · exact word_char_of_digit digit
  · have bound := Nat.le_trans most (show 'f' ≤ 'z' by decide)
    have lower : char.isLower = true :=
      (Bool.and_eq_true _ _).mpr ⟨decide_eq_true least, decide_eq_true bound⟩
    exact letter (.inr lower)
  · have bound := Nat.le_trans most (show 'F' ≤ 'Z' by decide)
    have upper : char.isUpper = true := decide_eq_true ⟨least, bound⟩
    exact letter (.inl upper)

theorem word_chars_of_hex {word : List Char} (shaped : isHexWord word = true) :
    ∀ char ∈ word, isWordChar char = true := by
  unfold isHexWord at shaped
  split at shaped
  case h_1 mark digits =>
    simp only [Bool.and_eq_true, Bool.or_eq_true, decide_eq_true_eq, List.all_eq_true] at shaped
    obtain ⟨⟨marked, -⟩, hexadecimal⟩ := shaped
    intro char member
    rcases List.mem_cons.1 member with rfl | member
    · decide
    rcases List.mem_cons.1 member with rfl | member
    · rcases marked with rfl | rfl <;> decide
    · exact word_char_of_hex_digit (hexadecimal char member)
  case h_2 => exact nomatch shaped

theorem digits_of_decimal {word : List Char} (shaped : isDecimalWord word = true) :
    word ≠ [] ∧ ∀ char ∈ word, char.isDigit = true := by
  simpa [isDecimalWord] using shaped

theorem not_hex_of_decimal {word : List Char} (shaped : isDecimalWord word = true) :
    isHexWord word = false := by
  obtain ⟨-, digits⟩ := digits_of_decimal shaped
  unfold isHexWord
  split
  case h_1 mark rest =>
    have digit := digits mark (by simp)
    have other : mark ≠ 'x' ∧ mark ≠ 'X' := by
      constructor <;> rintro rfl <;> exact nomatch digit
    simp [other]
  case h_2 => rfl

theorem keyword_wordy (keyword : Keyword) :
    keyword.spelling.toList ≠ [] ∧ ∀ char ∈ keyword.spelling.toList, isWordChar char = true := by
  have wordy : keyword.spelling.toList.all isWordChar = true := by
    cases keyword <;> decide
  refine ⟨?_, List.all_eq_true.1 wordy⟩
  cases keyword <;> decide

theorem PlainName.not_keyword {name : String} (plain : PlainName name) :
    Keyword.ofWord? name.toList = none := by
  cases found : Keyword.ofWord? name.toList with
  | none => rfl
  | some keyword =>
      have same := String.toList_injective (Keyword.spelling_of_word found)
      exact absurd same.symm (plain.free keyword)

instance (name : String) : Decidable (PlainName name) :=
  decidable_of_iff (name.toList.isEmpty = false ∧ name.toList.all isWordChar = true ∧
      Keyword.ofWord? name.toList = none ∧ isHexWord name.toList = false ∧
      isDecimalWord name.toList = false) <| by
    constructor
    · rintro ⟨filled, wordy, free, notHex, notDecimal⟩
      refine ⟨by simpa using filled, List.all_eq_true.1 wordy, ?_, notHex, notDecimal⟩
      rintro keyword rfl
      rw [Keyword.of_word_spelling] at free
      exact nomatch free
    · intro plain
      exact ⟨by simpa using plain.filled, List.all_eq_true.2 plain.wordy, plain.not_keyword,
        plain.notHex, plain.notDecimal⟩

theorem not_keyword_of_number {word : List Char}
    (shaped : isHexWord word = true ∨ isDecimalWord word = true) : Keyword.ofWord? word = none := by
  cases found : Keyword.ofWord? word with
  | none => rfl
  | some keyword =>
      rw [← Keyword.spelling_of_word found] at shaped
      cases keyword <;> exact absurd shaped (by decide)

end Characters

namespace Token

theorem of_word_keyword (keyword : Keyword) :
    ofWord keyword.spelling.toList = .keyword keyword := by
  rw [ofWord, Keyword.of_word_spelling]

theorem of_word_hex {word : List Char} (shaped : isHexWord word = true) :
    ofWord word = .hex (String.ofList word) := by
  rw [ofWord, not_keyword_of_number (.inl shaped)]
  dsimp only
  rw [if_pos shaped]

theorem of_word_decimal {word : List Char} (shaped : isDecimalWord word = true) :
    ofWord word = .int (String.ofList word) := by
  have notHex := not_hex_of_decimal shaped
  rw [ofWord, not_keyword_of_number (.inr shaped)]
  dsimp only
  rw [if_neg (by simp [notHex]), if_pos shaped]

theorem of_word_plain {name : String} (plain : PlainName name) :
    ofWord name.toList = .ident name := by
  rw [ofWord, plain.not_keyword]
  dsimp only
  rw [if_neg (by simp [plain.notHex]), if_neg (by simp [plain.notDecimal]), String.ofList_toList]

theorem scan_word {word rest : List Char} (filled : word ≠ [])
    (wordy : ∀ char ∈ word, isWordChar char = true)
    (ends : ∀ char, rest.head? = some char → isWordChar char = false) :
    scan? (word ++ rest) = some (ofWord word, rest) := by
  obtain ⟨taken, dropped⟩ := run_of_append wordy ends
  have first : ∀ char after, word ++ rest = char :: after → isWordChar char = true := by
    intro char after split
    cases word with
    | nil => exact absurd rfl filled
    | cons other word =>
        obtain ⟨rfl, -⟩ := List.cons.inj split
        exact wordy _ List.mem_cons_self
  unfold scan?
  split
  case h_14 =>
    dsimp only
    rw [taken, dropped, if_neg (by simpa using filled)]
  all_goals
    rename_i split
    exact nomatch first _ _ split

theorem text_run_append_units {body : List Char} (units : TextUnits body) (rest : List Char) :
    textRun (body ++ rest) = (body ++ (textRun rest).1, (textRun rest).2) := by
  induction units with
  | nil => rfl
  | @plain char others textual units induction =>
      have other : char ≠ '\\' := by
        rintro rfl
        exact nomatch textual
      rw [List.cons_append, textRun, if_pos textual, induction]
      · rfl
      · exact fun _ _ same => absurd same other
  | escape escapable units induction =>
      rw [List.cons_append, List.cons_append, textRun, if_pos escapable, induction]
      rfl

theorem text_run_of_units {body rest : List Char} (units : TextUnits body)
    (stops : textRun rest = ([], rest)) : textRun (body ++ rest) = (body, rest) := by
  rw [text_run_append_units units, stops, List.append_nil]

theorem units_of_text_run {body : List Char} (whole : (textRun body).2 = []) : TextUnits body := by
  fun_induction textRun body with
  | case1 => exact .nil
  | case2 char rest escapable run after split induction =>
      rw [split] at induction
      exact .escape escapable (induction whole)
  | case3 => cases whole
  | case4 char rest _ textual run after split induction =>
      rw [split] at induction
      exact .plain textual (induction whole)
  | case5 => cases whole

instance (body : List Char) : Decidable (TextUnits body) :=
  decidable_of_iff ((textRun body).2 = []) ⟨units_of_text_run, fun units => by
    have read := text_run_of_units units (show textRun [] = ([], []) from rfl)
    rw [List.append_nil] at read
    rw [read]⟩

theorem scan_text {body : String} (units : TextUnits body.toList) (rest : List Char) :
    scan? ('"' :: body.toList ++ '"' :: rest) = some (.text body, rest) := by
  have stops : textRun ('"' :: rest) = ([], '"' :: rest) := by
    rw [textRun]
    · rfl
    · exact nofun
  rw [List.cons_append, scan?, text_run_of_units units stops]
  simp only [String.ofList_toList]

theorem scan_signed {digits rest : List Char} (signed : SignedDigits digits)
    (ends : ∀ char, rest.head? = some char → isWordChar char = false) :
    scan? (digits ++ rest) = some (.int (String.ofList digits), rest) := by
  cases signed with
  | plain shaped =>
      obtain ⟨filled, decimal⟩ := digits_of_decimal shaped
      have wordy := fun char member => word_char_of_digit (decimal char member)
      rw [scan_word filled wordy ends, of_word_decimal shaped]
  | @negative digits shaped =>
      obtain ⟨filled, decimal⟩ := digits_of_decimal shaped
      have stops : ∀ char, rest.head? = some char → char.isDigit = false := by
        intro char first
        apply Bool.eq_false_iff.2
        intro digit
        have wordy := word_char_of_digit digit
        rw [ends char first] at wordy
        exact nomatch wordy
      obtain ⟨taken, dropped⟩ := run_of_append decimal stops
      rw [List.cons_append, scan?, taken, dropped, if_neg (by simpa using filled)]

theorem scan_mark (sign : Mark) {rest : List Char}
    (ends : ∀ char, rest.head? = some char → endsAt (.mark sign) char = true) :
    scan? (sign.spelling.toList ++ rest) = some (.mark sign, rest) := by
  cases sign with
  | not =>
      change scan? ('!' :: rest) = _
      rw [scan?]
      rintro after rfl
      exact nomatch ends _ rfl
  | _ => rfl

/-- A token is read back in front of all that does not carry it on. -/
theorem scan_of_spelling {token : Token} (genuine : token.Genuine) {rest : List Char}
    (ends : ∀ char, rest.head? = some char → token.endsAt char = true) :
    scan? (token.spelling.toList ++ rest) = some (token, rest) := by
  have wordEnds : (∀ char, token.endsAt char = !isWordChar char) →
      ∀ char, rest.head? = some char → isWordChar char = false := by
    intro same char first
    have stops := ends char first
    rw [same] at stops
    simpa using stops
  cases token with
  | keyword word =>
      obtain ⟨filled, wordy⟩ := keyword_wordy word
      have read := scan_word filled wordy (wordEnds fun _ => rfl)
      rwa [of_word_keyword] at read
  | mark sign => exact scan_mark sign ends
  | text body =>
      have read := scan_text genuine rest
      simpa [spelling] using read
  | hex digits =>
      have filled : digits.toList ≠ [] := by
        intro none
        rw [Genuine, none] at genuine
        cases genuine
      have read := scan_word filled (word_chars_of_hex genuine) (wordEnds fun _ => rfl)
      rwa [of_word_hex genuine, String.ofList_toList] at read
  | int digits =>
      have read := scan_signed genuine (wordEnds fun _ => rfl)
      rwa [String.ofList_toList] at read
  | ident name =>
      have read := scan_word genuine.filled genuine.wordy (wordEnds fun _ => rfl)
      rwa [of_word_plain genuine] at read

end Token

end KernelMenu

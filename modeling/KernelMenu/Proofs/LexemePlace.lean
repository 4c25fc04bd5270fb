import KernelMenu.Parse

/-!
Lexemes start one behind the other, and all of them before the source ends. So a byte offset at
which a lexeme starts tells which lexeme it is.
-/

namespace KernelMenu

/-- The number of bytes of a text. -/
def byteCount (text : List Char) : Nat := (String.ofList text).utf8ByteSize

theorem byte_count_to_list (text : String) : byteCount text.toList = text.utf8ByteSize := by
  rw [byteCount, String.ofList_toList]

theorem byte_count_append (front back : List Char) :
    byteCount (front ++ back) = byteCount front + byteCount back := by
  rw [byteCount, String.ofList_append, String.utf8ByteSize_append]
  rfl

theorem byte_count_cons (char : Char) (text : List Char) :
    byteCount (char :: text) = char.utf8Size + byteCount text := by
  simp [byteCount]

theorem byte_count_pos {text : List Char} (filled : text ≠ []) : 0 < byteCount text := by
  refine Nat.pos_of_ne_zero fun none => filled ?_
  have empty := String.utf8ByteSize_eq_zero_iff.1 none
  simpa using congrArg String.toList empty

theorem blank_cases {char : Char} (blank : isBlank char = true) :
    char = ' ' ∨ char = '\t' ∨ char = '\r' ∨ char = '\n' ∨ char = '\x0c' := by
  simpa only [isBlank, Bool.or_eq_true, decide_eq_true_eq, or_assoc] using blank

theorem byte_count_blank {char : Char} (blank : isBlank char = true) (text : List Char) :
    byteCount (char :: text) = 1 + byteCount text := by
  have size : byteCount [char] = 1 := by
    rcases blank_cases blank with rfl | rfl | rfl | rfl | rfl <;> rfl
  rw [← size]
  exact byte_count_append [char] text

namespace Lexeme

theorem scan_from_blank {offset : Nat} {char : Char} {rest : List Char}
    (blank : isBlank char = true) :
    scanFrom offset (char :: rest) = scanFrom (offset + 1) rest := by
  rw [scanFrom, if_pos blank]

theorem scan_from_gap {gap rest : List Char} (blank : ∀ char ∈ gap, isBlank char = true)
    (offset : Nat) : scanFrom offset (gap ++ rest) = scanFrom (offset + byteCount gap) rest := by
  induction gap generalizing offset with
  | nil => rfl
  | cons char gap induction =>
      have first := blank char List.mem_cons_self
      have others := induction fun other member => blank other (List.mem_cons_of_mem _ member)
      rw [List.cons_append, scan_from_blank first, others, byte_count_blank first gap,
        Nat.add_assoc]

theorem scan_from_step {offset : Nat} {input after : List Char} {token : Token}
    (found : Token.scan? input = some (token, after)) : scanFrom offset input =
      (scanFrom (offset + token.spelling.utf8ByteSize) after).map
        (⟨token, offset, offset + token.spelling.utf8ByteSize⟩ :: ·) := by
  cases input with
  | nil => cases found
  | cons char input =>
      have notBlank : ¬ isBlank char = true := by
        intro blank
        rcases blank_cases blank with rfl | rfl | rfl | rfl | rfl <;> cases found
      rw [scanFrom, if_neg notBlank]
      split
      case h_1 none =>
        rw [none] at found
        cases found
      case h_2 other after' found' =>
        rw [found] at found'
        obtain ⟨rfl, rfl⟩ := Prod.mk.inj (Option.some.inj found')
        dsimp only
        cases scanFrom (offset + token.spelling.utf8ByteSize) after <;> rfl

theorem scan_from_token {offset : Nat} {input after : List Char} {token : Token}
    {lexemes : List Lexeme} (found : Token.scan? input = some (token, after))
    (rest : scanFrom (offset + token.spelling.utf8ByteSize) after = .ok lexemes) :
    scanFrom offset input =
      .ok (⟨token, offset, offset + token.spelling.utf8ByteSize⟩ :: lexemes) := by
  rw [scan_from_step found, rest]
  rfl

theorem scan_from_starts {offset : Nat} {input : List Char} {lexemes : List Lexeme}
    (scanned : scanFrom offset input = .ok lexemes) :
    (∀ lexeme ∈ lexemes, offset ≤ lexeme.start ∧ lexeme.start < offset + byteCount input) ∧
      lexemes.Pairwise fun left right => left.start < right.start := by
  fun_induction scanFrom offset input generalizing lexemes with
  | case1 offset =>
      cases scanned
      exact ⟨nofun, .nil⟩
  | case2 offset char rest blank induction =>
      obtain ⟨starts, ordered⟩ := induction scanned
      refine ⟨fun lexeme member => ?_, ordered⟩
      have bounds := starts lexeme member
      have whole := byte_count_append [char] rest
      have filled := byte_count_pos (List.cons_ne_nil char [])
      rw [List.singleton_append] at whole
      omega
  | case3 => exact nomatch scanned
  | case4 =>
      rename_i offset char rest notBlank token after found stop others scanned' induction
      cases scanned
      obtain ⟨starts, ordered⟩ := induction scanned'
      have whole := byte_count_append token.spelling.toList after
      rw [Token.scan_spelling found] at whole
      have filled := byte_count_pos (Token.scan_spelling_ne_nil found)
      have size := byte_count_to_list token.spelling
      have later : ∀ lexeme ∈ others, offset + token.spelling.utf8ByteSize ≤ lexeme.start ∧
          lexeme.start < offset + token.spelling.utf8ByteSize + byteCount after := starts
      refine ⟨fun lexeme member => ?_, List.pairwise_cons.2 ⟨fun lexeme member => ?_, ordered⟩⟩
      · rcases List.mem_cons.1 member with rfl | member
        · refine ⟨Nat.le_refl _, ?_⟩
          dsimp only
          omega
        · have bounds := later lexeme member
          omega
      · have bounds := later lexeme member
        dsimp only
        omega
  | case5 => exact nomatch scanned

variable {source : String} {lexemes : List Lexeme}

theorem start_lt_size (scanned : ofSource source = .ok lexemes) {index : Nat} {lexeme : Lexeme}
    (found : lexemes[index]? = some lexeme) : lexeme.start < source.utf8ByteSize := by
  have bounds := (scan_from_starts scanned).1 lexeme (List.mem_of_getElem? found)
  rw [byte_count_to_list] at bounds
  omega

theorem index_of_start (scanned : ofSource source = .ok lexemes) {index other : Nat}
    {lexeme lexeme' : Lexeme} (found : lexemes[index]? = some lexeme)
    (found' : lexemes[other]? = some lexeme') (same : lexeme.start = lexeme'.start) :
    index = other := by
  have ordered := List.pairwise_iff_getElem.1 (scan_from_starts scanned).2
  obtain ⟨bound, rfl⟩ := List.getElem?_eq_some_iff.1 found
  obtain ⟨bound', rfl⟩ := List.getElem?_eq_some_iff.1 found'
  rcases Nat.lt_trichotomy index other with before | level | after
  · have less := ordered index other bound bound' before
    omega
  · exact level
  · have less := ordered other index bound' bound after
    omega

end Lexeme

end KernelMenu

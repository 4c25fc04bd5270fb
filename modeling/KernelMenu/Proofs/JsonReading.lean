import KernelMenu.Proofs.JsonGrammar

/-!
Data are read back from their JSON texts: first words, past the blanks between them, then what the
words say. So a text stands for one datum at most.
-/

namespace KernelMenu.Datum

namespace Json

section Strings

def readCode : List Char → Option (Nat × List Char)
  | first :: second :: third :: fourth :: rest =>
      (natural? 16 [first, second, third, fourth]).map (·, rest)
  | _ => none

def readLow (high : Nat) : List Char → Option (Char × List Char)
  | '\\' :: 'u' :: chars => do
      let (low, rest) ← readCode chars
      if IsPair high low then some (ofPair high low, rest) else none
  | _ => none

def readEscape : List Char → Option (Char × List Char)
  | [] => none
  | sign :: chars =>
      if sign = 'u' then do
        let (number, rest) ← readCode chars
        if number.isValidChar then some (Char.ofNat number, rest) else readLow number rest
      else (shortEscapes.lookup sign).map (·, chars)

def readChar : List Char → Option (Char × List Char)
  | [] => none
  | char :: rest =>
      if char = '\\' then readEscape rest
      else if ' ' ≤ char ∧ char ≠ '"' then some (char, rest)
      else none

def readChars : List Char → Option (List Char × List Char)
  | [] => none
  | char :: chars =>
      if char = '"' then some ([], chars)
      else match readChar (char :: chars) with
        | none => none
        | some (first, rest) =>
            if _ : rest.length ≤ chars.length then
              (readChars rest).map fun (others, after) => (first :: others, after)
            else none
termination_by chars => chars.length

variable {digits form text value : List Char} {number : Nat} {char : Char}

theorem read_code (code : IsCode digits number) (rest : List Char) :
    readCode (digits ++ rest) = some (number, rest) := by
  obtain ⟨four, found⟩ := code
  match digits, four with
  | [first, second, third, fourth], _ =>
      simp only [List.cons_append, List.nil_append, readCode, found, Option.map_some]

theorem short_escapes_lookup :
    ∀ pair ∈ shortEscapes, pair.1 ≠ 'u' ∧ shortEscapes.lookup pair.1 = some pair.2 := by
  decide

theorem read_char (written : WrittenChar form char) (rest : List Char) :
    readChar (form ++ rest) = some (char, rest) := by
  cases written with
  | plain printable quote backslash =>
      simp only [List.cons_append, List.nil_append, readChar, if_neg backslash,
        if_pos (And.intro printable quote)]
  | short known =>
      obtain ⟨other, found⟩ := short_escapes_lookup _ known
      simp only [List.cons_append, List.nil_append, readChar, readEscape, if_pos, if_neg other,
        found, Option.map_some]
  | code code valid =>
      simp only [List.cons_append, readChar, readEscape, if_pos, read_code code, valid,
        Option.bind_eq_bind, Option.bind_some]
  | @pair _ _ high low code code' pair =>
      have invalid : ¬high.isValidChar := by
        obtain ⟨⟨least, most⟩, -⟩ := pair
        simp only [Nat.isValidChar]
        omega
      simp only [List.cons_append, List.append_assoc, readChar, readEscape, if_pos, read_code code,
        if_neg invalid, readLow, read_code code', if_pos pair, Option.bind_eq_bind,
        Option.bind_some]

theorem exists_head_of_char (written : WrittenChar form char) :
    ∃ first others, form = first :: others ∧ first ≠ '"' := by
  cases written with
  | plain printable quote backslash => exact ⟨_, _, rfl, quote⟩
  | _ => exact ⟨_, _, rfl, by decide⟩

theorem read_chars (written : WrittenChars text value) (rest : List Char) :
    readChars (text ++ '"' :: rest) = some (value, rest) := by
  induction written with
  | nil => rw [List.nil_append, readChars, if_pos rfl]
  | @cons form written char value first others induction =>
      have found := read_char first (written ++ '"' :: rest)
      obtain ⟨head, tail, rfl, other⟩ := exists_head_of_char first
      rw [List.append_assoc, List.cons_append, readChars, if_neg other, ← List.cons_append, found]
      have shorter : (written ++ '"' :: rest).length ≤
          (tail ++ (written ++ '"' :: rest)).length := by
        simp only [List.length_append]
        omega
      dsimp only
      rw [dif_pos shorter, induction, Option.map_some]

end Strings

section Words

def readWord : List Char → Option (Word × List Char)
  | '"' :: chars => (readChars chars).map fun (value, rest) => (.text (String.ofList value), rest)
  | 'n' :: 'u' :: 'l' :: 'l' :: rest => some (.null, rest)
  | 't' :: 'r' :: 'u' :: 'e' :: rest => some (.flag true, rest)
  | 'f' :: 'a' :: 'l' :: 's' :: 'e' :: rest => some (.flag false, rest)
  | sign :: rest => if sign ∈ marks then some (.mark sign, rest) else none
  | [] => none

def readWords : List Char → Option (List Word)
  | [] => some []
  | char :: chars =>
      if isBlank char then readWords chars
      else match readWord (char :: chars) with
        | none => none
        | some (word, rest) =>
            if _ : rest.length ≤ chars.length then (readWords rest).map (word :: ·) else none
termination_by chars => chars.length

variable {form text : List Char} {word : Word} {words : List Word}

theorem read_word (written : WrittenWord form word) (rest : List Char) :
    readWord (form ++ rest) = some (word, rest) := by
  cases written with
  | mark known =>
      revert known
      simp only [marks, List.mem_cons, List.not_mem_nil, or_false]
      rintro (rfl | rfl | rfl | rfl | rfl | rfl) <;> rfl
  | null => rfl
  | yes => rfl
  | no => rfl
  | text written =>
      simp only [List.cons_append, List.append_assoc, List.nil_append, readWord, read_chars written,
        Option.map_some, String.ofList_toList]

theorem exists_head_of_word (written : WrittenWord form word) :
    ∃ first others, form = first :: others ∧ isBlank first = false := by
  cases written with
  | @mark sign known =>
      have solid : ∀ sign ∈ marks, isBlank sign = false := by simp [marks, isBlank]
      exact ⟨_, _, rfl, solid sign known⟩
  | _ => exact ⟨_, _, rfl, by decide⟩

theorem read_words (written : Written text words) : readWords text = some words := by
  induction written with
  | nil => rw [readWords]
  | blank blank _ induction => rw [readWords, if_pos blank, induction]
  | @cons form text word words first others induction =>
      have found := read_word first text
      obtain ⟨head, tail, rfl, solid⟩ := exists_head_of_word first
      rw [List.cons_append, readWords, solid, if_neg Bool.false_ne_true, ← List.cons_append, found]
      have shorter : text.length ≤ (tail ++ text).length := by
        simp only [List.length_append]
        omega
      dsimp only
      rw [dif_pos shorter, induction, Option.map_some]

end Words

section Rows

variable {Item : Type}

/-- Items with commas between them, up to and with the closing sign. -/
def readRow (closing : Char) (item : List Word → Option (Item × List Word)) :
    Nat → List Word → Option (List Item × List Word)
  | 0, _ => none
  | limit + 1, words =>
      match item words with
      | some (first, .mark sign :: rest) =>
          if sign = closing then some ([first], rest)
          else if sign = ',' then
            (readRow closing item limit rest).map fun (others, after) => (first :: others, after)
          else none
      | _ => none

def readEnclosed (closing : Char) (item : List Word → Option (Item × List Word))
    (words : List Word) : Option (List Item × List Word) :=
  if words.head? = some (.mark closing) then some ([], words.tail)
  else readRow closing item words.length words

def readField (value : List Word → Option (Datum × List Word)) :
    List Word → Option ((String × Datum) × List Word)
  | .text name :: .mark ':' :: words => (value words).map fun (value, rest) => ((name, value), rest)
  | _ => none

/-- Reads a datum in which lists and records are not deeper than a limit. -/
def readDatum : Nat → List Word → Option (Datum × List Word)
  | _ + 1, .null :: rest => some (.null, rest)
  | _ + 1, .flag value :: rest => some (.flag value, rest)
  | _ + 1, .text value :: rest => some (.text value, rest)
  | limit + 1, .mark '[' :: words =>
      (readEnclosed ']' (readDatum limit) words).map fun (items, rest) => (.list items, rest)
  | limit + 1, .mark '\x7b' :: words =>
      (readEnclosed '\x7d' (readField (readDatum limit)) words).map fun (fields, rest) =>
        (.record fields, rest)
  | _, _ => none

variable {item : List Word → Option (Item × List Word)} {form : Item → List Word}
  {closing : Char} {items : List Item} {rows : List (List Word)}

theorem length_le_intercalate {row separator : List Word} (member : row ∈ rows) :
    row.length ≤ (separator.intercalate rows).length := by
  induction rows with
  | nil => cases member
  | cons first rows induction =>
      cases rows with
      | nil =>
          rw [List.mem_singleton.1 member]
          simp
      | cons second rows =>
          rw [List.intercalate_cons_cons, List.length_append, List.length_append]
          rcases List.mem_cons.1 member with rfl | later
          · omega
          · have bound := induction later
            omega

theorem rows_length_le (rows : List (List Word)) :
    rows.length ≤ ([Word.mark ','].intercalate rows).length + 1 := by
  induction rows with
  | nil => exact Nat.zero_le _
  | cons first rows induction =>
      cases rows with
      | nil => exact Nat.le_add_left _ _
      | cons second rows =>
          rw [List.intercalate_cons_cons, List.length_append, List.length_append, List.length_cons]
          simp only [List.length_singleton]
          omega

theorem read_row (other : ',' ≠ closing) (nonempty : items ≠ [])
    (each : ∀ value ∈ items, ∀ rest, item (form value ++ rest) = some (value, rest)) {limit : Nat}
    (enough : items.length ≤ limit) (rest : List Word) :
    readRow closing item limit ([.mark ','].intercalate (items.map form) ++ .mark closing :: rest) =
      some (items, rest) := by
  induction items generalizing limit with
  | nil => exact absurd rfl nonempty
  | cons first items induction =>
      obtain ⟨limit, rfl⟩ : ∃ less, limit = less + 1 := Nat.exists_eq_add_one.2
        (Nat.lt_of_lt_of_le (Nat.succ_pos _) enough)
      have reads := each first List.mem_cons_self
      cases items with
      | nil =>
          simp only [List.map_cons, List.map_nil, List.intercalate_singleton, readRow, reads,
            if_pos]
      | cons second items =>
          have others := induction (List.cons_ne_nil _ _)
            (fun value member => each value (List.mem_cons_of_mem _ member))
            (Nat.le_of_succ_le_succ enough)
          rw [List.map_cons] at others
          simp only [List.map_cons, List.intercalate_cons_cons, List.append_assoc, List.cons_append,
            List.nil_append, readRow, reads, if_neg other, if_pos, others, Option.map_some]

theorem read_enclosed (other : ',' ≠ closing)
    (starts : ∀ value ∈ items, ∃ first others, form value = first :: others ∧ first ≠ .mark closing)
    (each : ∀ value ∈ items, ∀ rest, item (form value ++ rest) = some (value, rest))
    (rest : List Word) :
    readEnclosed closing item
      ([.mark ','].intercalate (items.map form) ++ .mark closing :: rest) = some (items, rest) := by
  cases items with
  | nil => exact if_pos rfl
  | cons first items =>
      have open' : ([Word.mark ','].intercalate ((first :: items).map form) ++
          .mark closing :: rest).head? ≠ some (.mark closing) := by
        obtain ⟨head, tail, same, different⟩ := starts first List.mem_cons_self
        cases items <;> simp [List.intercalate_cons_cons, same, different]
      have enough := rows_length_le ((first :: items).map form)
      rw [readEnclosed, if_neg open', read_row other (List.cons_ne_nil _ _) each]
      simp only [List.length_map, List.length_append, List.length_cons] at enough ⊢
      omega

end Rows

section Data

theorem exists_head_of_datum (datum : Datum) :
    ∃ first others, words datum = first :: others ∧ first ≠ .mark ']' := by
  cases datum <;> rw [words] <;> exact ⟨_, _, rfl, by simp⟩

theorem exists_less_of_datum {datum : Datum} {limit : Nat}
    (enough : (words datum).length ≤ limit) : ∃ less, limit = less + 1 := by
  obtain ⟨first, others, same, -⟩ := exists_head_of_datum datum
  rw [same] at enough
  exact Nat.exists_eq_add_one.2 (Nat.lt_of_lt_of_le (Nat.succ_pos _) enough)

theorem length_of_enclosed {opening closing : Char} {row : List Word} {rows : List (List Word)}
    {limit : Nat} (enough : (enclosed opening closing rows).length ≤ limit + 1)
    (member : row ∈ rows) : row.length ≤ limit := by
  have bound : row.length ≤ ([Word.mark ','].intercalate rows).length :=
    length_le_intercalate member
  simp only [enclosed, List.length_append, List.length_cons] at enough
  omega

theorem read_datum (datum : Datum) {limit : Nat} (enough : (words datum).length ≤ limit)
    (rest : List Word) : readDatum limit (words datum ++ rest) = some (datum, rest) := by
  -- The signs of a list or record are not among the words of its items: the limit holds inside.
  obtain ⟨less, rfl⟩ := exists_less_of_datum enough
  induction datum using Datum.induct generalizing less rest with
  | null => rw [words]; rfl
  | flag value => rw [words]; rfl
  | text value => rw [words]; rfl
  | list items induction =>
      rw [words, words_of_items_eq_map] at enough ⊢
      have each : ∀ value ∈ items, ∀ rest,
          readDatum less (words value ++ rest) = some (value, rest) := by
        intro value member rest
        have bound := length_of_enclosed enough (List.mem_map_of_mem member)
        obtain ⟨less, rfl⟩ := exists_less_of_datum bound
        exact induction value member rest less bound
      have whole := read_enclosed (by decide) (fun value _ => exists_head_of_datum value) each rest
      simp [enclosed, readDatum, whole]
  | record fields induction =>
      rw [words, words_of_fields_eq_map] at enough ⊢
      have each : ∀ field ∈ fields, ∀ rest,
          readField (readDatum less) (wordsOfField field ++ rest) = some (field, rest) := by
        intro field member rest
        have bound := length_of_enclosed enough (List.mem_map_of_mem member)
        have bound' : (words field.2).length ≤ less := Nat.le_of_succ_le (Nat.le_of_succ_le bound)
        obtain ⟨less, rfl⟩ := exists_less_of_datum bound'
        have value := induction field member rest less bound'
        simp only [wordsOfField, List.cons_append, readField, value, Option.map_some]
      have starts : ∀ field ∈ fields, ∃ first others,
          wordsOfField field = first :: others ∧ first ≠ .mark '\x7d' :=
        fun field _ => ⟨_, _, rfl, by simp⟩
      have whole := read_enclosed (by decide) starts each rest
      simp [enclosed, readDatum, whole]

end Data

end Json

/-- The datum that a JSON text stands for. -/
def ofJson? (text : String) : Option Datum :=
  match Json.readWords text.toList with
  | none => none
  | some words =>
      match Json.readDatum words.length words with
      | some (datum, []) => some datum
      | _ => none

theorem of_json_of_has_json {datum : Datum} {text : String} (written : datum.HasJson text) :
    ofJson? text = some datum := by
  have whole := Json.read_datum datum (Nat.le_refl _) []
  rw [List.append_nil] at whole
  simp only [ofJson?, Json.read_words written, whole]

example :
    (ofJson? "[ \"\\ud83d\\ude00\\/\",\tnull ]").map (toJson .dense) = some "[\"😀/\",null]" := by
  decide +kernel

end KernelMenu.Datum

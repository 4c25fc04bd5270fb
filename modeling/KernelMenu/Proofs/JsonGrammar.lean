import KernelMenu.Datum.Json
import KernelMenu.Decimal
import Mathlib.Data.List.Forall2

/-!
The grammar of JSON, without its numbers. A text is a row of words with blanks anywhere between
them, and there is one row of words for a datum. Data are written by this grammar, whatever blanks a
layout puts between the words.
-/

namespace KernelMenu.Datum

theorem induct {Holds : Datum → Prop} (null : Holds .null) (flag : ∀ value, Holds (.flag value))
    (text : ∀ value, Holds (.text value))
    (list : ∀ items, (∀ item ∈ items, Holds item) → Holds (.list items))
    (record : ∀ fields, (∀ field ∈ fields, Holds field.2) → Holds (.record fields))
    (datum : Datum) : Holds datum :=
  @Datum.rec Holds (fun items => ∀ item ∈ items, Holds item)
    (fun fields => ∀ field ∈ fields, Holds field.2) (fun field => Holds field.2) null flag text
    list record (List.forall_mem_nil _) (fun _ _ first rest => List.forall_mem_cons.2 ⟨first, rest⟩)
    (List.forall_mem_nil _) (fun _ _ first rest => List.forall_mem_cons.2 ⟨first, rest⟩)
    (fun _ _ value => value) datum

namespace Json

/-- A sign, a name, or a string with its escapes resolved. -/
inductive Word where
  | mark (sign : Char)
  | null
  | flag (value : Bool)
  | text (value : String)
deriving DecidableEq, Repr

def marks : List Char := ['\x7b', '\x7d', '[', ']', ',', ':']

def isBlank (char : Char) : Bool := char = ' ' || char = '\t' || char = '\n' || char = '\r'

/-- What a backslash and one sign stand for. -/
def shortEscapes : List (Char × Char) :=
  [('"', '"'), ('\\', '\\'), ('/', '/'), ('b', '\x08'), ('f', '\x0c'), ('n', '\n'), ('r', '\r'),
    ('t', '\t')]

/-- The numbers of a pair of escapes that stand for one character. -/
def IsPair (high low : Nat) : Prop :=
  (0xd800 ≤ high ∧ high < 0xdc00) ∧ 0xdc00 ≤ low ∧ low < 0xe000

instance (high low : Nat) : Decidable (IsPair high low) := by
  unfold IsPair
  infer_instance

def ofPair (high low : Nat) : Char :=
  Char.ofNat (0x10000 + (high - 0xd800) * 0x400 + (low - 0xdc00))

structure IsCode (digits : List Char) (number : Nat) : Prop where
  four : digits.length = 4
  value : natural? 16 digits = some number

inductive WrittenChar : List Char → Char → Prop
  | plain {char : Char} : ' ' ≤ char → char ≠ '"' → char ≠ '\\' → WrittenChar [char] char
  | short {sign char : Char} : (sign, char) ∈ shortEscapes → WrittenChar ['\\', sign] char
  | code {digits : List Char} {number : Nat} : IsCode digits number → number.isValidChar →
      WrittenChar ('\\' :: 'u' :: digits) (Char.ofNat number)
  | pair {digits digits' : List Char} {high low : Nat} : IsCode digits high → IsCode digits' low →
      IsPair high low →
      WrittenChar ('\\' :: 'u' :: (digits ++ '\\' :: 'u' :: digits')) (ofPair high low)

inductive WrittenChars : List Char → List Char → Prop
  | nil : WrittenChars [] []
  | cons {form written : List Char} {char : Char} {text : List Char} :
      WrittenChar form char → WrittenChars written text →
      WrittenChars (form ++ written) (char :: text)

inductive WrittenWord : List Char → Word → Prop
  | mark {sign : Char} : sign ∈ marks → WrittenWord [sign] (.mark sign)
  | null : WrittenWord ['n', 'u', 'l', 'l'] .null
  | yes : WrittenWord ['t', 'r', 'u', 'e'] (.flag true)
  | no : WrittenWord ['f', 'a', 'l', 's', 'e'] (.flag false)
  | text {written : List Char} {value : String} : WrittenChars written value.toList →
      WrittenWord ('"' :: (written ++ ['"'])) (.text value)

/-- Words as they are written, with blanks between them or not. -/
inductive Written : List Char → List Word → Prop
  | nil : Written [] []
  | blank {char : Char} {text : List Char} {words : List Word} : isBlank char → Written text words →
      Written (char :: text) words
  | cons {form text : List Char} {word : Word} {words : List Word} : WrittenWord form word →
      Written text words → Written (form ++ text) (word :: words)

/-- Rows of words with commas between them, in a pair of signs. -/
def enclosed (opening closing : Char) (rows : List (List Word)) : List Word :=
  .mark opening :: ([.mark ','].intercalate rows ++ [.mark closing])

mutual

def words : Datum → List Word
  | .null => [.null]
  | .flag value => [.flag value]
  | .text value => [.text value]
  | .list items => enclosed '[' ']' (wordsOfItems items)
  | .record fields => enclosed '\x7b' '\x7d' (wordsOfFields fields)

def wordsOfItems : List Datum → List (List Word)
  | [] => []
  | item :: items => words item :: wordsOfItems items

def wordsOfFields : List (String × Datum) → List (List Word)
  | [] => []
  | (name, value) :: fields => (.text name :: .mark ':' :: words value) :: wordsOfFields fields

end

def wordsOfField (field : String × Datum) : List Word := .text field.1 :: .mark ':' :: words field.2

theorem words_of_items_eq_map (items : List Datum) : wordsOfItems items = items.map words := by
  induction items with
  | nil => rfl
  | cons item items induction => rw [wordsOfItems, induction, List.map_cons]

theorem words_of_fields_eq_map (fields : List (String × Datum)) :
    wordsOfFields fields = fields.map wordsOfField := by
  induction fields with
  | nil => rfl
  | cons field fields induction => rw [wordsOfFields, induction, List.map_cons, wordsOfField]

end Json

/-- Says that a text is JSON and stands for the datum. -/
def HasJson (datum : Datum) (text : String) : Prop := Json.Written text.toList (Json.words datum)

namespace Json

section Strings

theorem natural_of_byte : ∀ number < 32,
    natural? 16 ['0', '0', hexDigit (number / 16), hexDigit (number % 16)] = some number := by
  decide

theorem written_escape_char (char : Char) : WrittenChar (escapeChar char) char := by
  rw [escapeChar]
  split_ifs with quote backslash feed carriage tab back form control
  · subst quote
    exact .short (by decide)
  · subst backslash
    exact .short (by decide)
  · subst feed
    exact .short (by decide)
  · subst carriage
    exact .short (by decide)
  · subst tab
    exact .short (by decide)
  · subst back
    exact .short (by decide)
  · subst form
    exact .short (by decide)
  · have code : IsCode ['0', '0', hexDigit (char.toNat / 16), hexDigit (char.toNat % 16)]
        char.toNat := ⟨rfl, natural_of_byte _ control⟩
    have written := WrittenChar.code code char.valid
    rwa [Char.ofNat_toNat] at written
  · exact .plain (Char.not_lt.1 control) quote backslash

theorem written_escape (text : List Char) : WrittenChars (text.flatMap escapeChar) text := by
  induction text with
  | nil => exact .nil
  | cons char text induction => exact .cons (written_escape_char char) induction

theorem written_quote (text : String) : WrittenWord (quote text).toList (.text text) := by
  simpa [quote] using WrittenWord.text (written_escape text.toList)

end Strings

section Rows

variable {front back : List Char} {words words' : List Word}

theorem Written.append (written : Written front words) (written' : Written back words') :
    Written (front ++ back) (words ++ words') := by
  induction written with
  | nil => exact written'
  | blank blank _ induction => exact .blank blank induction
  | cons word _ induction =>
      rw [List.append_assoc, List.cons_append]
      exact .cons word induction

theorem Written.word {form : List Char} {word : Word} (written : WrittenWord form word) :
    Written form [word] := by
  simpa using Written.cons written .nil

theorem Written.blanks (blanks : front.all isBlank) : Written front [] := by
  induction front with
  | nil => exact .nil
  | cons char front induction =>
      rw [List.all_cons, Bool.and_eq_true] at blanks
      exact .blank blanks.1 (induction blanks.2)

theorem Written.intercalate {separator : List Char} {texts : List (List Char)}
    {rows : List (List Word)} (between : Written separator words)
    (each : List.Forall₂ Written texts rows) :
    Written (separator.intercalate texts) (words.intercalate rows) := by
  induction each with
  | nil => exact .nil
  | cons first rest induction =>
      cases rest with
      | nil => simpa using first
      | cons second rest =>
          rw [List.intercalate_cons_cons, List.intercalate_cons_cons]
          exact (first.append between).append induction

end Rows

/-- A layout that puts blanks between words, and nothing else. -/
structure Layout.IsBlank (layout : Layout) : Prop where
  newLine : ∀ depth, (layout.newLine depth).toList.all isBlank
  afterColon : layout.afterColon.toList.all isBlank

theorem Layout.blank_spread : spread.IsBlank where
  newLine depth := by
    have blank : isBlank '\n' ∧ isBlank ' ' := by decide
    simp [spread, blank]
  afterColon := by decide

theorem Layout.blank_dense : dense.IsBlank where
  newLine _ := rfl
  afterColon := rfl

section Layouts

variable {layout : Layout}

theorem written_enclose (blank : layout.IsBlank) (depth : Nat) {opening closing : String}
    {first last : Char} (opens : opening.toList = [first]) (closes : closing.toList = [last])
    (known : first ∈ marks) (known' : last ∈ marks) {texts : List String} {rows : List (List Word)}
    (each : List.Forall₂ (fun text row => Written text.toList row) texts rows) :
    Written (enclose layout depth opening closing texts).toList (enclosed first last rows) := by
  have head : Written opening.toList [.mark first] := opens ▸ .word (.mark known)
  have foot : Written closing.toList [.mark last] := closes ▸ .word (.mark known')
  cases each with
  | nil => simpa [enclose, enclosed] using head.append foot
  | @cons text row texts rows one others =>
      have each : List.Forall₂ Written ((text :: texts).map String.toList) (row :: rows) :=
        List.forall₂_map_left_iff.2 (.cons one others)
      have comma : Written ("," ++ layout.newLine (depth + 1)).toList [.mark ','] := by
        rw [String.toList_append]
        exact (Written.word (.mark (by decide))).append (.blanks (blank.newLine _))
      have whole := ((head.append (.blanks (blank.newLine (depth + 1)))).append
        (comma.intercalate each)).append ((Written.blanks (blank.newLine depth)).append foot)
      simpa [enclose, enclosed] using whole

theorem write_items_eq_map (depth : Nat) (items : List Datum) :
    writeItems layout depth items = items.map (write layout depth) := by
  induction items with
  | nil => rfl
  | cons item items induction => rw [writeItems, induction, List.map_cons]

theorem write_fields_eq_map (depth : Nat) (fields : List (String × Datum)) :
    writeFields layout depth fields = fields.map fun field =>
      quote field.1 ++ ":" ++ layout.afterColon ++ write layout depth field.2 := by
  induction fields with
  | nil => rfl
  | cons field fields induction => rw [writeFields, induction, List.map_cons]

theorem written_write (blank : layout.IsBlank) (datum : Datum) (depth : Nat) :
    Written (write layout depth datum).toList (words datum) := by
  induction datum using Datum.induct generalizing depth with
  | null =>
      rw [write, words]
      exact .word .null
  | flag value =>
      rw [write, words]
      cases value with
      | false => exact .word .no
      | true => exact .word .yes
  | text value =>
      rw [write, words]
      exact .word (written_quote value)
  | list items induction =>
      rw [write, words, write_items_eq_map, words_of_items_eq_map]
      refine written_enclose blank depth rfl rfl (by decide) (by decide) ?_
      rw [List.forall₂_map_left_iff, List.forall₂_map_right_iff, List.forall₂_same]
      exact fun item member => induction item member _
  | record fields induction =>
      rw [write, words, write_fields_eq_map, words_of_fields_eq_map]
      refine written_enclose blank depth rfl rfl (by decide) (by decide) ?_
      rw [List.forall₂_map_left_iff, List.forall₂_map_right_iff, List.forall₂_same]
      intro field member
      have colon : Written ":".toList [.mark ':'] := .word (.mark (by decide))
      have whole := (((Written.word (written_quote field.1)).append colon).append
        (.blanks blank.afterColon)).append (induction field member (depth + 1))
      simpa [wordsOfField] using whole

/-- Whatever blanks a layout has, what is written stands for the datum. -/
theorem has_json_to_json (blank : layout.IsBlank) (datum : Datum) :
    datum.HasJson (datum.toJson layout) :=
  written_write blank datum 0

end Layouts

end Json

end KernelMenu.Datum

import KernelMenu.Proofs.LineSearch
import KernelMenu.Proofs.NameOrder
import Mathlib.Data.List.Induction

/-!
What line and column of an offset tell. The line is the number of line feeds in front of the offset,
the column counts the characters behind the last of them, and both together lead back to the offset
if it lies between two characters.
-/

namespace KernelMenu

/-- What stands behind the last line feed, or all if there is none. -/
def lastLine {Item : Type} [DecidableEq Item] (feed : Item) (text : List Item) : List Item :=
  (text.reverse.takeWhile (· ≠ feed)).reverse

section LastLine

variable {Item : Type} [DecidableEq Item] {feed item : Item} {text head tail : List Item}

theorem last_line_feed (text : List Item) : lastLine feed (text ++ [feed]) = [] := by
  simp [lastLine]

theorem last_line_snoc (other : item ≠ feed) :
    lastLine feed (text ++ [item]) = lastLine feed text ++ [item] := by
  simp [lastLine, other]

theorem last_line_append (plain : feed ∉ tail) (text : List Item) :
    lastLine feed (text ++ tail) = lastLine feed text ++ tail := by
  induction tail using List.reverseRecOn with
  | nil => rw [List.append_nil, List.append_nil]
  | append_singleton tail item induction =>
      have others : feed ∉ tail := fun member => plain (List.mem_append_left _ member)
      have other : item ≠ feed := fun same => plain (by simp [same])
      rw [← List.append_assoc, last_line_snoc other, induction others, List.append_assoc]

theorem exists_last_line (feed : Item) (text : List Item) :
    ∃ head, text = head ++ lastLine feed text ∧ feed ∉ lastLine feed text ∧
      (head = [] ∨ ∃ before, head = before ++ [feed]) := by
  induction text using List.reverseRecOn with
  | nil => exact ⟨[], rfl, List.not_mem_nil, .inl rfl⟩
  | append_singleton text item induction =>
      by_cases same : item = feed
      · rw [same, last_line_feed]
        exact ⟨text ++ [feed], (List.append_nil _).symm, List.not_mem_nil, .inr ⟨text, rfl⟩⟩
      · obtain ⟨head, split, plain, ends⟩ := induction
        rw [last_line_snoc same]
        refine ⟨head, ?_, ?_, ends⟩
        · rw [← List.append_assoc, ← split]
        · simpa [plain] using Ne.symm same

end LastLine

/-- The number of bytes in front of a place, given by the line feeds to pass and the characters to
pass behind them; the text has to be long enough. -/
def offsetOf? : Nat → Nat → List Char → Option Nat
  | 0, 0, _ => some 0
  | 0, column + 1, char :: rest => (offsetOf? 0 column rest).map (char.utf8Size + ·)
  | line + 1, column, char :: rest =>
      (offsetOf? (if char = '\n' then line else line + 1) column rest).map (char.utf8Size + ·)
  | 0, _ + 1, [] | _ + 1, _, [] => none

/-- The offset lies between two characters, or at an end of the source. -/
def IsBoundary (source : String) (offset : Nat) : Prop :=
  ∃ before after, source = before ++ after ∧ before.utf8ByteSize = offset

/-- Line and column of an offset, by what stands in front of it. -/
structure Position.Tells (source : String) (position : Position) : Prop where
  line : position.line = ((textBytes source).take position.offset).count 10
  characters : ∀ before after, source = before ++ after →
    before.utf8ByteSize = position.offset →
    position.column = (lastLine '\n' before.toList).length
  bytes : ¬ IsBoundary source position.offset →
    position.column = (lastLine 10 ((textBytes source).take position.offset)).length
  leadsBack : IsBoundary source position.offset →
    offsetOf? position.line position.column source.toList = some position.offset

/-- The line is a smaller one, or the line is the same and the column is smaller. -/
def Position.Before (position later : Position) : Prop :=
  position.line < later.line ∨ position.line = later.line ∧ position.column < later.column

/-- So many bytes reach no further than into the first character. -/
inductive Within : List Char → Nat → Prop
  | between (rest : List Char) : Within rest 0
  | inside {char : Char} {rest : List Char} {bytes : Nat} :
      0 < bytes → bytes < char.utf8Size → Within (char :: rest) bytes

theorem exists_within {text : List Char} {offset : Nat} (le : offset ≤ byteCount text) :
    ∃ front back bytes, text = front ++ back ∧ offset = byteCount front + bytes ∧
      Within back bytes := by
  induction text generalizing offset with
  | nil => exact ⟨[], [], 0, rfl, Nat.le_zero.1 le, .between []⟩
  | cons char text induction =>
      rw [byte_count_cons] at le
      rcases Nat.lt_or_ge offset char.utf8Size with less | beyond
      · rcases Nat.eq_zero_or_pos offset with rfl | filled
        · exact ⟨[], char :: text, 0, rfl, rfl, .between _⟩
        · exact ⟨[], char :: text, offset, rfl, (Nat.zero_add _).symm, .inside filled less⟩
      · obtain ⟨front, back, bytes, rfl, same, within⟩ :=
          @induction (offset - char.utf8Size) (by omega)
        refine ⟨char :: front, back, bytes, rfl, ?_, within⟩
        rw [byte_count_cons]
        omega

def Position.behind (front : List Char) (bytes : Nat) : Position where
  offset := byteCount front + bytes
  line := front.count '\n'
  column :=
    if bytes = 0 then (lastLine '\n' front).length else byteCount (lastLine '\n' front) + bytes

section Walk

open Position

theorem advance_append (front rest : List Char) (distance : Nat) :
    advance 0 0 0 (front ++ rest) (byteCount front + distance) =
      advance (front.count '\n') (lastLine '\n' front).length (byteCount (lastLine '\n' front)) rest
        distance := by
  induction front using List.reverseRecOn generalizing rest distance with
  | nil => exact congrArg (advance 0 0 0 rest) (Nat.zero_add distance)
  | append_singleton front char induction =>
      have filled := char.utf8Size_pos
      have size : byteCount [char] = char.utf8Size := by simp [byteCount]
      rw [List.append_assoc, List.singleton_append, byte_count_append, size, Nat.add_assoc,
        induction, advance, if_neg (by omega), if_neg (by omega), Nat.add_sub_cancel_left]
      split
      case isTrue feed =>
        subst feed
        rw [last_line_feed, List.count_append, List.count_singleton_self,
          show '\n'.utf8Size + distance - 1 = distance from Nat.add_sub_cancel_left 1 distance]
        rfl
      case isFalse other =>
        have none : [char].count '\n' = 0 := List.count_eq_zero.2 (by simpa using Ne.symm other)
        rw [last_line_snoc other, List.count_append, none, List.length_append, byte_count_append,
          size]
        rfl

theorem advance_within {back : List Char} {bytes : Nat} (within : Within back bytes)
    (line characters start : Nat) : advance line characters start back bytes =
      (line, if bytes = 0 then characters else start + bytes) := by
  cases within with
  | between => cases back <;> rfl
  | inside filled less =>
      rw [advance, if_neg (by omega), if_pos less, if_neg (by omega)]

theorem of_offset_eq_behind {source : String} {front back : List Char} {bytes : Nat}
    (split : source.toList = front ++ back) (within : Within back bytes)
    (le : byteCount front + bytes ≤ source.utf8ByteSize) :
    ofOffset source (byteCount front + bytes) = behind front bytes := by
  simp only [ofOffset, Nat.min_eq_left le, split, advance_append, advance_within within]
  rfl

end Walk

namespace LineTable

theorem cut_append (front rest : List Char) (bytes : Nat) :
    cut? (byteCount front + bytes) (front ++ rest) =
      (cut? bytes rest).map fun parts => (front ++ parts.1, parts.2) := by
  induction front with
  | nil => simp [byteCount]
  | cons char front induction =>
      have filled := char.utf8Size_pos
      obtain ⟨others, size⟩ : ∃ others, byteCount (char :: front) + bytes = others + 1 :=
        Nat.exists_eq_add_one.2 (by rw [byte_count_cons]; omega)
      have less : others + 1 - char.utf8Size = byteCount front + bytes := by
        rw [← size, byte_count_cons]
        omega
      rw [size, List.cons_append, cut?, if_pos (by rw [← size, byte_count_cons]; omega), less,
        induction, Option.map_map]
      rfl

theorem cut_within {back : List Char} {bytes : Nat} (within : Within back bytes) :
    cut? bytes back = if bytes = 0 then some ([], back) else none := by
  cases within with
  | between => rw [cut?, if_pos rfl]
  | inside filled less =>
      obtain ⟨others, rfl⟩ := Nat.exists_eq_add_one.2 filled
      rw [cut?, if_neg (by omega), if_neg (by omega)]

theorem boundary_unique {front back before after : List Char} {bytes : Nat}
    (within : Within back bytes) (same : before ++ after = front ++ back)
    (size : byteCount before = byteCount front + bytes) : bytes = 0 ∧ before = front := by
  have cut := cut_append before after 0
  rw [cut_within (.between after), if_pos rfl, Nat.add_zero, same, size, cut_append,
    cut_within within] at cut
  split at cut
  case isTrue none =>
    have parts := Option.some.inj cut
    exact ⟨none, by simpa using (congrArg Prod.fst parts).symm⟩
  case isFalse => cases cut

theorem between_within (head inner : List Char) {back : List Char} {bytes : Nat}
    (within : Within back bytes) :
    between? (byteCount head) (byteCount (head ++ inner) + bytes) (head ++ inner ++ back) =
      if bytes = 0 then some inner else none := by
  have le : byteCount head ≤ byteCount (head ++ inner) + bytes := by
    rw [byte_count_append]
    omega
  have length : byteCount (head ++ inner) + bytes - byteCount head = byteCount inner + bytes := by
    rw [byte_count_append]
    omega
  have first := cut_append head (inner ++ back) 0
  rw [cut_within (.between _), if_pos rfl, Nat.add_zero] at first
  rw [between?, if_pos le, length, List.append_assoc, first]
  simp only [Option.map_some, Option.bind_eq_bind, Option.bind_some, cut_append, cut_within within]
  split <;> simp

/-- The last line that starts in front of the offset starts behind the last line feed. -/
theorem starts_split (front : List Char) : ∃ earlier head, front = head ++ lastLine '\n' front ∧
    0 :: startsFrom 0 front = earlier ++ [byteCount head] ∧ earlier.length = front.count '\n' := by
  obtain ⟨head, parts, plain, ends⟩ := exists_last_line '\n' front
  have starts : startsFrom 0 front = startsFrom 0 head := by
    rw [parts, starts_from_append, starts_from_plain plain, List.append_nil]
  have count : front.count '\n' = head.count '\n' := by
    rw [parts, List.count_append, List.count_eq_zero.2 plain, Nat.add_zero]
  rw [starts, count]
  rcases ends with rfl | ⟨before, rfl⟩
  · exact ⟨[], [], parts, rfl, rfl⟩
  · have last : startsFrom (0 + byteCount before) ['\n'] = [byteCount (before ++ ['\n'])] := by
      rw [byte_count_append, Nat.zero_add]
      rfl
    refine ⟨0 :: startsFrom 0 before, _, parts, ?_, ?_⟩
    · rw [starts_from_append, last]
      rfl
    · rw [List.length_cons, starts_from_length, List.count_append, List.count_singleton_self]

theorem starts_later {back : List Char} {bytes start : Nat} (within : Within back bytes)
    (offset : Nat) (member : start ∈ startsFrom offset back) : offset + bytes < start := by
  cases within with
  | between => exact (starts_from_bounds member).1
  | @inside char rest bytes filled less =>
      have other : char ≠ '\n' := by
        rintro rfl
        exact absurd less (Nat.not_lt.2 filled)
      rw [startsFrom, if_neg other] at member
      have bounds := starts_from_bounds member
      omega

/-- The table leads to the line of the offset, and the column is counted from the line's start. -/
theorem position_eq_behind {source : String} {front back : List Char} {bytes : Nat}
    (split : source.toList = front ++ back) (within : Within back bytes)
    (le : byteCount front + bytes ≤ source.utf8ByteSize) :
    (ofSource source).position? (byteCount front + bytes) = some (.behind front bytes) := by
  obtain ⟨earlier, head, parts, starts, count⟩ := starts_split front
  have size : byteCount front = byteCount head + byteCount (lastLine '\n' front) := by
    rw [← byte_count_append, ← parts]
  have whole : 0 :: startsFrom 0 source.toList =
      earlier ++ byteCount head :: startsFrom (byteCount front) back := by
    rw [split, starts_from_append, ← List.cons_append, starts, Nat.zero_add, List.append_assoc]
    rfl
  have sorted : (0 :: startsFrom 0 source.toList).Pairwise (· < ·) :=
    List.pairwise_cons.2 ⟨fun _ member => (starts_from_bounds member).1, starts_from_sorted _⟩
  have table : (ofSource source).starts =
      (earlier ++ byteCount head :: startsFrom (byteCount front) back).toArray :=
    congrArg List.toArray whole
  have line := line_of_split table (whole ▸ sorted)
    (Nat.le_add_right_of_le (size ▸ Nat.le_add_right _ _))
    fun start member => starts_later within (byteCount front) member
  have start : (ofSource source).starts[earlier.length]? = some (byteCount head) := by
    simp [table]
  have column : (ofSource source).column? (byteCount head) (byteCount front + bytes) =
      some (Position.behind front bytes).column := by
    have cut := between_within head (lastLine '\n' front) within
    rw [← parts, ← split] at cut
    rw [column?, show (ofSource source).source = source from rfl, cut]
    by_cases between : bytes = 0
    · simp only [Position.behind, if_pos between]
    · have le : byteCount head ≤ byteCount front + bytes := by omega
      simp only [Position.behind, if_neg between, if_pos le, Option.some.injEq]
      omega
  simp only [position?, show (ofSource source).source = source from rfl, Nat.min_eq_left le, line,
    start, column, Option.bind_eq_bind, Option.bind_some]
  rw [count]
  rfl

theorem position_min (source : String) (offset : Nat) :
    (ofSource source).position? (min offset source.utf8ByteSize) =
      (ofSource source).position? offset := by
  simp only [position?, show (ofSource source).source = source from rfl, Nat.min_assoc,
    Nat.min_self]

end LineTable

section Bytes

/-- The bytes of a text. -/
def encoded (text : List Char) : List UInt8 := text.flatMap String.utf8EncodeChar

theorem encoded_append (front back : List Char) :
    encoded (front ++ back) = encoded front ++ encoded back := List.flatMap_append

theorem encoded_cons (char : Char) (text : List Char) :
    encoded (char :: text) = String.utf8EncodeChar char ++ encoded text := List.flatMap_cons

theorem encoded_length (text : List Char) : (encoded text).length = byteCount text := by
  induction text with
  | nil => rfl
  | cons char text induction =>
      rw [encoded_cons, List.length_append, String.length_utf8EncodeChar, byte_count_cons,
        induction]

theorem encode_high {char : Char} (large : 127 < char.val.toNat) :
    ∀ byte ∈ String.utf8EncodeChar char, 128 ≤ byte.toNat := by
  fun_cases String.utf8EncodeChar char with
  | case1 value small => exact absurd small (Nat.not_le.2 large)
  | case2 value | case3 value | case4 value =>
      simp only [List.forall_mem_cons, UInt8.toNat_ofNat']
      and_intros <;> first | omega | exact nofun

theorem feed_mem_encode {char : Char} : 10 ∈ String.utf8EncodeChar char ↔ char = '\n' := by
  constructor
  · intro member
    rcases Nat.lt_or_ge 127 char.val.toNat with large | small
    · exact absurd (encode_high large 10 member) (by decide)
    · have single := Char.utf8Size_eq_one_iff.2 (UInt32.le_iff_toNat_le.2 small)
      rw [String.utf8EncodeChar_eq_singleton single, List.mem_singleton] at member
      have code := congrArg UInt8.toNat member
      rw [UInt32.toNat_toUInt8, Nat.mod_eq_of_lt (by omega)] at code
      exact Char.ext (UInt32.toNat_inj.1 code.symm)
  · rintro rfl
    decide

theorem feed_mem_encoded {text : List Char} : 10 ∈ encoded text ↔ '\n' ∈ text := by
  simp [encoded, List.mem_flatMap, feed_mem_encode]

theorem count_encoded (text : List Char) : (encoded text).count 10 = text.count '\n' := by
  induction text with
  | nil => rfl
  | cons char text induction =>
      rw [encoded_cons, List.count_append, induction, List.count_cons, Nat.add_comm]
      congr 1
      split
      case isTrue feed =>
        rw [eq_of_beq feed]
        rfl
      case isFalse other =>
        exact List.count_eq_zero.2 fun member => other (beq_of_eq (feed_mem_encode.1 member))

theorem last_line_encoded (text : List Char) :
    lastLine 10 (encoded text) = encoded (lastLine '\n' text) := by
  obtain ⟨head, parts, plain, ends⟩ := exists_last_line '\n' text
  have plainBytes : 10 ∉ encoded (lastLine '\n' text) := fun member =>
    plain (feed_mem_encoded.1 member)
  have start : lastLine 10 (encoded head) = [] := by
    rcases ends with rfl | ⟨before, rfl⟩
    · rfl
    · rw [encoded_append]
      exact last_line_feed (encoded before)
  have split : encoded text = encoded head ++ encoded (lastLine '\n' text) := by
    rw [← encoded_append, ← parts]
  rw [split, last_line_append plainBytes, start, List.nil_append]

/-- Of the bytes in front of an offset only those of whole characters can be line feeds. -/
theorem take_encoded (front : List Char) {back : List Char} {bytes : Nat}
    (within : Within back bytes) :
    ∃ part, (encoded (front ++ back)).take (byteCount front + bytes) = encoded front ++ part ∧
      10 ∉ part ∧ part.length = bytes := by
  refine ⟨(encoded back).take bytes, ?_, ?_⟩
  · rw [encoded_append, ← encoded_length, List.take_length_add_append]
  · cases within with
    | between => exact ⟨List.not_mem_nil, rfl⟩
    | @inside char rest _ filled less =>
        have size := String.length_utf8EncodeChar char
        rw [encoded_cons, List.take_append_of_le_length (size ▸ Nat.le_of_lt less)]
        refine ⟨fun member => ?_, List.length_take_of_le (size ▸ Nat.le_of_lt less)⟩
        obtain rfl := feed_mem_encode.1 (List.mem_of_mem_take member)
        exact absurd less (Nat.not_lt.2 filled)

end Bytes

section LeadingBack

theorem offset_of_line (tail rest : List Char) :
    offsetOf? 0 tail.length (tail ++ rest) = some (byteCount tail) := by
  induction tail with
  | nil => rw [List.length_nil, offsetOf?]; rfl
  | cons char tail induction =>
      rw [List.length_cons, List.cons_append, offsetOf?, induction, byte_count_cons]
      rfl

theorem offset_of_feed (before rest : List Char) (column : Nat) :
    offsetOf? (before.count '\n' + 1) column (before ++ '\n' :: rest) =
      (offsetOf? 0 column rest).map (byteCount (before ++ ['\n']) + ·) := by
  induction before with
  | nil => rfl
  | cons char before induction =>
      have counted : (if char = '\n' then (char :: before).count '\n'
          else (char :: before).count '\n' + 1) = before.count '\n' + 1 := by
        split
        case isTrue feed => rw [feed, List.count_cons_self]
        case isFalse other => rw [List.count_cons_of_ne other]
      rw [List.cons_append, offsetOf?, counted, induction, Option.map_map, List.cons_append,
        byte_count_cons]
      refine congrArg (Option.map · _) (funext fun offset => ?_)
      exact (Nat.add_assoc _ _ _).symm

/-- The line feeds and the characters behind the last of them lead to the end of a front part. -/
theorem offset_of_front (front back : List Char) :
    offsetOf? (front.count '\n') (lastLine '\n' front).length (front ++ back) =
      some (byteCount front) := by
  obtain ⟨head, parts, plain, ends⟩ := exists_last_line '\n' front
  have count : front.count '\n' = head.count '\n' := by
    rw [parts, List.count_append, List.count_eq_zero.2 plain, Nat.add_zero]
  have size : byteCount front = byteCount head + byteCount (lastLine '\n' front) := by
    rw [← byte_count_append, ← parts]
  have split : front ++ back = head ++ (lastLine '\n' front ++ back) := by
    rw [← List.append_assoc, ← parts]
  rw [count, size, split]
  rcases ends with rfl | ⟨before, rfl⟩
  · rw [List.nil_append, List.count_nil, offset_of_line]
    exact congrArg some (Nat.zero_add _).symm
  · rw [List.append_assoc, List.singleton_append, List.count_append, List.count_singleton_self,
      offset_of_feed, offset_of_line]
    rfl

end LeadingBack

namespace Position

variable {source : String} {front back : List Char} {bytes : Nat}

theorem boundary_of_split (split : source.toList = front ++ back) :
    IsBoundary source (byteCount front) := by
  refine ⟨String.ofList front, String.ofList back, ?_, rfl⟩
  rw [← String.ofList_append, ← split, String.ofList_toList]

theorem front_of_boundary (split : source.toList = front ++ back) (within : Within back bytes)
    {before after : String} (whole : source = before ++ after)
    (size : before.utf8ByteSize = byteCount front + bytes) : bytes = 0 ∧ before.toList = front := by
  have same : before.toList ++ after.toList = front ++ back := by
    rw [← String.toList_append, ← whole, split]
  exact LineTable.boundary_unique within same (by rw [byte_count_to_list, size])

theorem behind_tells (split : source.toList = front ++ back) (within : Within back bytes) :
    (behind front bytes).Tells source := by
  obtain ⟨part, taken, plain, length⟩ := take_encoded front within
  have taken : (textBytes source).take (behind front bytes).offset = encoded front ++ part := by
    rw [text_bytes_eq, split]
    exact taken
  constructor
  case line =>
    rw [taken, List.count_append, List.count_eq_zero.2 plain, count_encoded]
    rfl
  case characters =>
    intro before after whole size
    obtain ⟨rfl, rfl⟩ := front_of_boundary split within whole size
    rfl
  case bytes =>
    intro inside
    have behindFront : bytes ≠ 0 := by
      rintro rfl
      exact inside (boundary_of_split split)
    rw [taken, last_line_append plain, last_line_encoded, List.length_append, encoded_length,
      length]
    exact if_neg behindFront
  case leadsBack =>
    rintro ⟨before, after, whole, size⟩
    obtain ⟨rfl, rfl⟩ := front_of_boundary split within whole size
    rw [split]
    exact offset_of_front _ back

theorem behind_before {more : List Char} (filled : more ≠ []) :
    (behind front 0).Before (behind (front ++ more) 0) := by
  by_cases feed : '\n' ∈ more
  · refine .inl ?_
    have counted := List.count_pos_iff.2 feed
    change front.count '\n' < (front ++ more).count '\n'
    rw [List.count_append]
    omega
  · refine .inr ⟨?_, ?_⟩
    · change front.count '\n' = (front ++ more).count '\n'
      rw [List.count_append, List.count_eq_zero.2 feed, Nat.add_zero]
    · have longer := List.length_pos_iff.2 filled
      change (lastLine '\n' front).length < (lastLine '\n' (front ++ more)).length
      rw [last_line_append feed, List.length_append]
      omega

theorem of_offset_min (source : String) (offset : Nat) :
    ofOffset source (min offset source.utf8ByteSize) = ofOffset source offset := by
  simp only [ofOffset, Nat.min_assoc, Nat.min_self]

/-- Every offset has characters in front of it, and perhaps some bytes of one more. -/
theorem exists_behind (source : String) (offset : Nat) : ∃ front back bytes,
    source.toList = front ++ back ∧ Within back bytes ∧
      min offset source.utf8ByteSize = byteCount front + bytes ∧
      ofOffset source offset = behind front bytes ∧
      (LineTable.ofSource source).position? offset = some (behind front bytes) := by
  have within : min offset source.utf8ByteSize ≤ byteCount source.toList :=
    byte_count_to_list source ▸ Nat.min_le_right _ _
  obtain ⟨front, back, bytes, split, place, inside⟩ := exists_within within
  have le : byteCount front + bytes ≤ source.utf8ByteSize := place ▸ Nat.min_le_right _ _
  have clamped := LineTable.position_eq_behind split inside le
  rw [← place] at clamped
  refine ⟨front, back, bytes, split, inside, place, ?_, ?_⟩
  · rw [← of_offset_eq_behind split inside le, ← place]
    exact (of_offset_min source offset).symm
  · rw [← clamped]
    exact (LineTable.position_min source offset).symm

/-- The search in the table never fails, and what it finds is the position of the offset. -/
theorem table_position (source : String) (offset : Nat) :
    (LineTable.ofSource source).position? offset = some (ofOffset source offset) := by
  obtain ⟨front, back, bytes, -, -, -, same, found⟩ := exists_behind source offset
  exact same ▸ found

theorem before_of_lt {offset later : Nat} (less : offset < later)
    (boundary : IsBoundary source offset) (boundary' : IsBoundary source later) :
    (ofOffset source offset).Before (ofOffset source later) := by
  obtain ⟨before, after, whole, rfl⟩ := boundary
  obtain ⟨before', after', whole', rfl⟩ := boundary'
  have same : before.toList ++ after.toList = before'.toList ++ after'.toList := by
    rw [← String.toList_append, ← String.toList_append, ← whole, ← whole']
  have placed : ∀ {front back : String}, source = front ++ back →
      ofOffset source front.utf8ByteSize = behind front.toList 0 := by
    rintro front back rfl
    have le : byteCount front.toList + 0 ≤ (front ++ back).utf8ByteSize := by
      rw [String.utf8ByteSize_append, byte_count_to_list]
      exact Nat.le_add_right _ _
    rw [← byte_count_to_list]
    exact of_offset_eq_behind String.toList_append (.between _) le
  rw [placed whole, placed whole']
  rw [← byte_count_to_list, ← byte_count_to_list] at less
  rcases List.append_eq_append_iff.1 same with ⟨more, longer, -⟩ | ⟨more, shorter, -⟩
  · rw [longer]
    refine behind_before fun none => ?_
    rw [longer, none, List.append_nil] at less
    exact Nat.lt_irrefl _ less
  · rw [shorter, byte_count_append] at less
    omega

/-- The table of a source has an answer for every offset, and it is the position of the offset.
The position tells the number of line feeds in front of it and the length of what stands behind
the last of them; between two characters it leads back to the offset, and later offsets have later
positions. -/
theorem of_offset_tells (source : String) (offset : Nat) :
    (LineTable.ofSource source).position? offset = some (ofOffset source offset) ∧
    (ofOffset source offset).offset = min offset source.utf8ByteSize ∧
    (ofOffset source offset).Tells source ∧
    ∀ later, offset < later → IsBoundary source offset → IsBoundary source later →
      (ofOffset source offset).Before (ofOffset source later) := by
  obtain ⟨front, back, bytes, split, within, -, same, -⟩ := exists_behind source offset
  refine ⟨table_position source offset, rfl, ?_, fun later less boundary boundary' =>
    before_of_lt less boundary boundary'⟩
  rw [same]
  exact behind_tells split within

/-- A sign of three bytes and a line feed in front of a letter. -/
theorem of_offset_tells_of_sign :
    IsBoundary "√\nx" 3 ∧ IsBoundary "√\nx" 5 ∧
    (LineTable.ofSource "√\nx").position? 3 = some ⟨3, 0, 1⟩ ∧
    (ofOffset "√\nx" 3).Before (ofOffset "√\nx" 5) := by
  have boundary : IsBoundary "√\nx" 3 := ⟨"√", "\nx", rfl, rfl⟩
  have boundary' : IsBoundary "√\nx" 5 := ⟨"√\nx", "", rfl, rfl⟩
  obtain ⟨found, -, -, increasing⟩ := of_offset_tells "√\nx" 3
  exact ⟨boundary, boundary', found.trans rfl, increasing 5 (by decide) boundary boundary'⟩

end Position

end KernelMenu

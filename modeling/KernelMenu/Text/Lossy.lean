/-!
Text from bytes that may be broken. Where no character is encoded, the bytes that could have begun
one become a single replacement character together.
-/

namespace KernelMenu.Text

def isTail (byte : UInt8) : Bool := 0x80 ≤ byte && byte ≤ 0xbf

/-- True of a second byte that can follow the first one in a character of three or four bytes. -/
def secondFits (first second : UInt8) : Bool :=
  if first = 0xe0 then 0xa0 ≤ second && second ≤ 0xbf
  else if first = 0xed then 0x80 ≤ second && second ≤ 0x9f
  else if first = 0xf0 then 0x90 ≤ second && second ≤ 0xbf
  else if first = 0xf4 then 0x80 ≤ second && second ≤ 0x8f
  else 0xe1 ≤ first && first ≤ 0xf3 && isTail second

/-- How many bytes are given up along with the first one where no character is encoded. -/
def brokenTail (first : UInt8) : List UInt8 → Nat
  | [] => 0
  | second :: rest =>
      if secondFits first second then
        if 0xf0 ≤ first && rest.head?.any isTail then 2 else 1
      else 0

def firstChar? (bytes : List UInt8) : Option Char :=
  (bytes.take 4).toByteArray.utf8DecodeChar? 0

def lossyChars : List UInt8 → List Char
  | [] => []
  | first :: rest =>
      match firstChar? (first :: rest) with
      | some char => char :: lossyChars (rest.drop (char.utf8Size - 1))
      | none => '\ufffd' :: lossyChars (rest.drop (brokenTail first rest))
termination_by bytes => bytes.length
decreasing_by
  all_goals
    rw [List.length_drop, List.length_cons]
    omega

def lossy (bytes : ByteArray) : String := String.ofList (lossyChars bytes.data.toList)

theorem first_char_encoded (char : Char) (rest : List UInt8) :
    firstChar? (String.utf8EncodeChar char ++ rest) = some char := by
  have size : (String.utf8EncodeChar char).length ≤ 4 := by
    rw [String.length_utf8EncodeChar]
    exact char.utf8Size_le_four
  rw [firstChar?, List.take_append, List.take_of_length_le size, List.toByteArray_append]
  exact ByteArray.utf8DecodeChar?_utf8EncodeChar_append

theorem lossy_chars_encoded (chars : List Char) :
    lossyChars (chars.flatMap String.utf8EncodeChar) = chars := by
  induction chars with
  | nil => rw [List.flatMap_nil, lossyChars]
  | cons char chars induction =>
      have size := String.length_utf8EncodeChar char
      have first := first_char_encoded char (chars.flatMap String.utf8EncodeChar)
      rw [List.flatMap_cons]
      cases encoded : String.utf8EncodeChar char with
      | nil =>
          rw [encoded] at size
          exact absurd size.symm (Nat.ne_of_gt char.utf8Size_pos)
      | cons byte bytes =>
          rw [encoded, List.cons_append] at first
          rw [encoded, List.length_cons] at size
          rw [List.cons_append, lossyChars, first]
          dsimp only
          rw [← size, Nat.add_sub_cancel, List.drop_left, induction]

theorem lossy_of_text (text : String) : lossy text.toUTF8 = text := by
  have bytes : text.toUTF8.data.toList = text.toList.flatMap String.utf8EncodeChar := by
    rw [String.toUTF8, ← String.utf8Encode_toList, List.utf8Encode, List.data_toByteArray]
  rw [lossy, bytes, lossy_chars_encoded, String.ofList_toList]

/-- A byte that begins nothing, and the beginning of a character of three bytes. -/
example : lossyChars [0x61, 0xff, 0x62, 0xe2, 0x82, 0x63] =
    ['a', '\ufffd', 'b', '\ufffd', 'c'] := by
  decide +kernel

end KernelMenu.Text

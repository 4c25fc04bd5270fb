import KernelMenu.Proofs.ExpectedNames

/-!
The names of what was looked for are sorted, and none of them comes twice. Each of their characters
is a single byte, so their order is that of their bytes.
-/

namespace KernelMenu

/-- The bytes that a text is encoded as. -/
def textBytes (text : String) : List UInt8 := text.toUTF8.data.toList

theorem text_bytes_eq (text : String) :
    textBytes text = text.toList.flatMap String.utf8EncodeChar := by
  rw [textBytes, String.toUTF8, ← String.utf8Encode_toList, List.utf8Encode, List.data_toByteArray]

def SingleBytes (text : List Char) : Prop := ∀ char ∈ text, char.utf8Size = 1

instance (text : List Char) : Decidable (SingleBytes text) :=
  decidable_of_iff (text.all (·.utf8Size = 1) = true) (by simp [SingleBytes])

theorem single_byte_lt {left right : Char} (single : left.utf8Size = 1)
    (single' : right.utf8Size = 1) (less : left < right) :
    left.val.toUInt8 < right.val.toUInt8 := by
  have small := UInt32.le_iff_toNat_le.1 (Char.utf8Size_eq_one_iff.1 single)
  have small' := UInt32.le_iff_toNat_le.1 (Char.utf8Size_eq_one_iff.1 single')
  have less' := UInt32.lt_iff_toNat_lt.1 (Char.lt_def.1 less)
  rw [show (127 : UInt32).toNat = 127 from rfl] at small small'
  rw [UInt8.lt_iff_toNat_lt, UInt32.toNat_toUInt8, UInt32.toNat_toUInt8]
  omega

theorem encode_lt {left right : List Char} (single : SingleBytes left)
    (single' : SingleBytes right) (less : left < right) :
    left.flatMap String.utf8EncodeChar < right.flatMap String.utf8EncodeChar := by
  induction less with
  | @nil char rest =>
      obtain ⟨own, -⟩ := List.forall_mem_cons.1 single'
      rw [List.flatMap_cons, String.utf8EncodeChar_eq_singleton own]
      exact .nil
  | @rel char _ char' _ before =>
      obtain ⟨own, -⟩ := List.forall_mem_cons.1 single
      obtain ⟨own', -⟩ := List.forall_mem_cons.1 single'
      rw [List.flatMap_cons, List.flatMap_cons, String.utf8EncodeChar_eq_singleton own,
        String.utf8EncodeChar_eq_singleton own']
      exact .rel (single_byte_lt own own' before)
  | @cons char _ _ _ induction =>
      obtain ⟨own, others⟩ := List.forall_mem_cons.1 single
      obtain ⟨-, others'⟩ := List.forall_mem_cons.1 single'
      rw [List.flatMap_cons, List.flatMap_cons, String.utf8EncodeChar_eq_singleton own]
      exact .cons (induction others others')

theorem text_bytes_lt {left right : String} (single : SingleBytes left.toList)
    (single' : SingleBytes right.toList) (less : left < right) :
    textBytes left < textBytes right := by
  rw [text_bytes_eq, text_bytes_eq]
  exact encode_lt single single' (String.lt_iff.1 less)

namespace Grammar

namespace Want

theorem insert_name_sorted (name : String) {names : List String}
    (sorted : names.Pairwise (· < ·)) : (insertName name names).Pairwise (· < ·) := by
  induction names with
  | nil => exact List.pairwise_singleton _ name
  | cons other names induction =>
      obtain ⟨behind, rest⟩ := List.pairwise_cons.1 sorted
      rw [insertName]
      split
      case isTrue before =>
        refine List.pairwise_cons.2 ⟨List.forall_mem_cons.2 ⟨before, ?_⟩, sorted⟩
        exact fun later member => String.lt_trans before (behind later member)
      case isFalse notBefore =>
        split
        case isTrue => exact sorted
        case isFalse different =>
          have after : other < name := Decidable.byContradiction fun notAfter =>
            different (String.le_antisymm (String.not_lt.1 notAfter) (String.not_lt.1 notBefore))
          refine List.pairwise_cons.2 ⟨fun later member => ?_, induction rest⟩
          rcases mem_insert_name.1 member with rfl | member
          · exact after
          · exact behind later member

theorem names_sorted (wants : List Want) : (names wants).Pairwise (· < ·) := by
  rw [names]
  generalize wants.filterMap name? ++ classNames (wants.filterMap class?) = list
  induction list with
  | nil => exact .nil
  | cons name list induction => exact insert_name_sorted name induction

end Want

theorem spelling_single_bytes {token : Token} (fixed : token.kind ≠ .classed) :
    SingleBytes token.spelling.toList := by
  cases token with
  | keyword word => cases word <;> decide
  | mark sign => cases sign <;> decide
  | text | hex | int | ident => exact absurd rfl fixed

namespace Wanted

variable {word rest : List Token} {wants : List Want}

theorem name_single_bytes (wanted : Wanted word rest wants) {name : String}
    (named : name ∈ Want.names wants) : SingleBytes name.toList := by
  rcases wanted.mem_names.1 named with ⟨token, member, rfl⟩ | ⟨-, rfl⟩ | ⟨tokens, -, rfl⟩
  · rw [String.toList_append, String.toList_append]
    have quote : SingleBytes "'".toList := by decide
    have inner := spelling_single_bytes (wanted.fixed token member)
    exact List.forall_mem_append.2 ⟨List.forall_mem_append.2 ⟨quote, inner⟩, quote⟩
  · decide
  · cases tokens <;> decide

/-- The names increase in the order of their bytes. -/
theorem names_increase (wanted : Wanted word rest wants) :
    (Want.names wants).Pairwise fun left right => textBytes left < textBytes right := by
  refine (Want.names_sorted wants).imp_of_mem fun named named' less => ?_
  exact text_bytes_lt (wanted.name_single_bytes named) (wanted.name_single_bytes named') less

end Wanted

end Grammar

end KernelMenu

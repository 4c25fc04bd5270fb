import KernelMenu.Proofs.MarkupReading

/-!
Texts in which every line is ended by a line feed. Such a text has its lines in one way only.
-/

namespace KernelMenu

/-- The text is made of these lines, each one ended by a line feed and with none inside. -/
structure ConsistsOf (text : String) (lines : List String) : Prop where
  whole : text = String.join (lines.map (· ++ "\n"))
  single : ∀ line ∈ lines, '\n' ∉ line.toList

theorem join_chars (lines : List String) : (String.join (lines.map (· ++ "\n"))).toList =
    lines.flatMap fun line => line.toList ++ ['\n'] := by
  rw [String.toList_join, List.flatMap_map]
  simp only [String.toList_append]
  rfl

namespace ConsistsOf

variable {text : String} {lines others : List String}

theorem unique (consists : ConsistsOf text lines) (consists' : ConsistsOf text others) :
    lines = others := by
  have same := congrArg String.toList (consists.whole.symm.trans consists'.whole)
  rw [join_chars, join_chars] at same
  have filled : ∀ (line : String) (rest : List Char), [] ≠ line.toList ++ ['\n'] ++ rest := by
    simp
  have each : ∀ line ∈ lines, ∀ other ∈ others, ∀ rest rest',
      line.toList ++ ['\n'] ++ rest = other.toList ++ ['\n'] ++ rest' →
        line = other ∧ rest = rest' := by
    intro line member other member' rest rest' level
    rw [List.append_assoc, List.append_assoc] at level
    obtain ⟨equal, behind⟩ := run_cancel (· ≠ '\n') level
      (fun char inside => by simpa using ne_of_mem_of_not_mem inside (consists.single line member))
      (fun char inside => by
        simpa using ne_of_mem_of_not_mem inside (consists'.single other member'))
      (by simp) (by simp)
    exact ⟨String.toList_injective equal, (List.cons.inj behind).2⟩
  exact (Element.row_cancel each (fun other _ => filled other) (fun line _ => filled line)
    (by rw [List.append_nil, List.append_nil]; exact same)).1

theorem count_feeds (consists : ConsistsOf text lines) : text.toList.count '\n' = lines.length := by
  obtain ⟨whole, single⟩ := consists
  rw [whole, join_chars]
  clear whole
  induction lines with
  | nil => rfl
  | cons line lines induction =>
      obtain ⟨own, others⟩ := List.forall_mem_cons.1 single
      rw [List.flatMap_cons, List.count_append, List.count_append, List.count_eq_zero.2 own,
        induction others, List.length_cons, Nat.zero_add, List.count_singleton_self, Nat.add_comm]

end ConsistsOf

end KernelMenu

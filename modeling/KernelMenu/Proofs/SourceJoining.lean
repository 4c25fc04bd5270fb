import Mathlib.Data.List.Basic
import KernelMenu.Proofs.SourceWrapping

/-!
Two sources in one, with blanks between them: the tree has the symbols of the first one and then
those of the second one. No token reaches across the blanks, and no symbol of the first source goes
on with the tokens of the second one.
-/

namespace KernelMenu

open Grammar Phrase

theorem cut_of_blanks {blanks : List Char} (blank : ∀ char ∈ blanks, isBlank char = true)
    (rest : List Char) : Cut rest (blanks ++ rest) [] := by
  induction blanks with
  | nil => exact .done
  | cons char blanks induction =>
      have others : Cut rest (blanks ++ rest) [] := by
        apply induction
        intro other member
        exact blank other (List.mem_cons_of_mem _ member)
      exact .blank (blank char List.mem_cons_self) others

theorem tokens_of_joined {first second blanks : String} {words words' : List Token}
    (read : Token.ofSource first = .ok words) (read' : Token.ofSource second = .ok words')
    (filled : blanks ≠ "") (blank : ∀ char ∈ blanks.toList, isBlank char = true) :
    Token.ofSource (first ++ blanks ++ second) = .ok (words ++ words') := by
  have front := Token.of_source_iff.1 read
  have back := Token.of_source_iff.1 read'
  rw [← List.append_nil first.toList] at front
  have ahead : ∀ char, (blanks.toList ++ second.toList).head? = some char →
      isBlank char = true := by
    intro char found
    have some : blanks.toList ≠ [] := by simpa using filled
    rw [List.head?_append_of_ne_nil _ some] at found
    exact blank char (List.mem_of_head? found)
  have whole := (front.in_front ahead).append ((cut_of_blanks blank _).append back)
  apply Token.of_source_iff.2
  simpa only [String.toList_append, List.append_assoc, List.nil_append] using whole

theorem Draft.symbols_append {front back : List Draft} {symbols symbols' : List Symbol}
    (found : Draft.symbols front = .ok symbols) (found' : Draft.symbols back = .ok symbols') :
    Draft.symbols (front ++ back) = .ok (symbols ++ symbols') := by
  rw [symbols_eq_ok_iff] at found found' ⊢
  rw [List.mapM_append, found, found']
  rfl

namespace Root

/-- The tree of two sources with blanks between them has the symbols of both, in their order. -/
theorem parse_append {first second blanks : String} {left right : Root}
    (parsed : parse first = .ok left) (parsed' : parse second = .ok right)
    (filled : blanks ≠ "") (blank : ∀ char ∈ blanks.toList, isBlank char = true) :
    parse (first ++ blanks ++ second) = .ok (.ofChildren (left.children ++ right.children)) := by
  obtain ⟨words, drafts, symbols, read, holds, found, rfl⟩ := parse_eq_ok_iff.1 parsed
  obtain ⟨words', drafts', symbols', read', holds', found', rfl⟩ := parse_eq_ok_iff.1 parsed'
  apply parse_eq_ok_iff.2
  refine ⟨words ++ words', drafts ++ drafts', symbols ++ symbols', ?_, ?_, ?_, rfl⟩
  · exact tokens_of_joined read read' filled blank
  · exact source_append holds holds'
  · exact Draft.symbols_append found found'

/-- A header without a body, and a conditional block that does not become its body. -/
theorem parse_append_of_header :
    parse "menu \"M\"\x7b\x7dconfig A hex" = .ok (.ofChildren [.menu ⟨"M", .yes⟩ [],
      .entry ⟨"A", false, .hex, .yes, none, [], [], [], [], []⟩ []]) ∧
    parse "if[!B]\x7bconfig C hex\x7d" = .ok (.ofChildren [
      .entry ⟨"C", false, .hex, .yes, none, [], [], [], [], []⟩ []]) ∧
    "\n" ≠ "" ∧ (∀ char ∈ "\n".toList, isBlank char = true) ∧
    parse ("menu \"M\"\x7b\x7dconfig A hex" ++ "\n" ++ "if[!B]\x7bconfig C hex\x7d") =
      .ok (.ofChildren [.menu ⟨"M", .yes⟩ [],
        .entry ⟨"A", false, .hex, .yes, none, [], [], [], [], []⟩ [],
        .entry ⟨"C", false, .hex, .yes, none, [], [], [], [], []⟩ []]) := by
  have parsed : parse "menu \"M\"\x7b\x7dconfig A hex" = .ok (.ofChildren [.menu ⟨"M", .yes⟩ [],
      .entry ⟨"A", false, .hex, .yes, none, [], [], [], [], []⟩ []]) := by decide +kernel
  have parsed' : parse "if[!B]\x7bconfig C hex\x7d" = .ok (.ofChildren [
      .entry ⟨"C", false, .hex, .yes, none, [], [], [], [], []⟩ []]) := by decide +kernel
  have filled : "\n" ≠ "" := by decide
  have blank : ∀ char ∈ "\n".toList, isBlank char = true := List.all_eq_true.1 (by decide)
  exact ⟨parsed, parsed', filled, blank, parse_append parsed parsed' filled blank⟩

end Root

end KernelMenu

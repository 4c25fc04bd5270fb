import KernelMenu.Proofs.BlockRemoval
import KernelMenu.Proofs.TreeReading

/-!
Conditional blocks leave no trace in the tree of a source. The text of a row of symbols can be put
in braces behind a guard, wherever it stands; and sources whose tokens differ in their blocks alone,
by any number of them and under any conditions, give the same tree.
-/

namespace KernelMenu

open Grammar Phrase Relation

structure Parted (before inside after : String) (front run back : List Lexeme) : Prop where
  scanned : Lexeme.ofSource (before ++ inside ++ after) = .ok (front ++ run ++ back)
  front : ∀ lexeme ∈ front, lexeme.stop ≤ before.utf8ByteSize
  run : ∀ lexeme ∈ run, before.utf8ByteSize ≤ lexeme.start ∧
    lexeme.stop ≤ (before ++ inside).utf8ByteSize
  back : ∀ lexeme ∈ back, (before ++ inside).utf8ByteSize ≤ lexeme.start

section Text

variable {before inside after : String} {front run back : List Lexeme}

theorem Parted.cuts (parted : Parted before inside after front run back) :
    Cut (inside.toList ++ after.toList) (before.toList ++ (inside.toList ++ after.toList))
        (front.map Lexeme.token) ∧
      Cut after.toList (inside.toList ++ after.toList) (run.map Lexeme.token) ∧
      Cut [] after.toList (back.map Lexeme.token) := by
  have scanned := parted.scanned
  simp only [Lexeme.ofSource, String.toList_append, List.append_assoc] at scanned
  have size :
      byteCount before.toList + byteCount inside.toList = (before ++ inside).utf8ByteSize := by
    rw [← byte_count_append, ← String.toList_append, byte_count_to_list]
  have small : before.utf8ByteSize ≤ (before ++ inside).utf8ByteSize := by
    rw [← size, byte_count_to_list]
    exact Nat.le_add_right _ _
  obtain ⟨first, scanned⟩ := Lexeme.cut_of_scan_from scanned
    (by simpa only [Nat.zero_add, byte_count_to_list] using parted.front)
    (by
      intro lexeme member
      rw [Nat.zero_add, byte_count_to_list]
      rcases List.mem_append.1 member with member | member
      · exact (parted.run lexeme member).1
      · exact Nat.le_trans small (parted.back lexeme member))
  rw [Nat.zero_add] at scanned
  obtain ⟨second, scanned⟩ := Lexeme.cut_of_scan_from scanned
    (fun lexeme member => by
      rw [size]
      exact (parted.run lexeme member).2)
    (by simpa only [size] using parted.back)
  exact ⟨first, second, Lexeme.cut_of_scan scanned⟩

def wrapped (opening before inside after : String) : String :=
  before ++ " " ++ opening ++ " " ++ inside ++ " \x7d " ++ after

theorem tokens_of_wrapped (parted : Parted before inside after front run back) {opening : String}
    {head : List Token} (opens : Token.ofSource opening = .ok head) :
    Token.ofSource (wrapped opening before inside after) = .ok (front.map Lexeme.token ++
      (head ++ run.map Lexeme.token ++ [.mark .closeBrace]) ++ back.map Lexeme.token) := by
  obtain ⟨first, second, third⟩ := parted.cuts
  have opened := Token.of_source_iff.1 opens
  rw [← List.append_nil opening.toList] at opened
  have blank : ∀ rest : List Char, Cut rest (' ' :: rest) [] := fun rest => .blank rfl .done
  have ahead : ∀ (rest : List Char) (char : Char),
      (' ' :: rest).head? = some char → isBlank char = true := by
    rintro rest char ⟨⟩
    rfl
  have closing : Cut after.toList (' ' :: '\x7d' :: ' ' :: after.toList) [.mark .closeBrace] :=
    .blank rfl (.token rfl (blank _))
  -- Each text keeps its cut, as there is a blank behind it now.
  have inner := (second.in_front (ahead _)).append closing
  have guarded := (opened.in_front (ahead _)).append ((blank _).append inner)
  have whole := (first.in_front (ahead _)).append ((blank _).append guarded)
  apply Token.of_source_iff.2
  simpa [wrapped] using whole.append third

end Text

theorem exists_source {words : List Token} (genuine : AllGenuine words) :
    ∃ source, Token.ofSource source = .ok words := by
  refine ⟨String.ofList ([' '].intercalate (words.map fun word => word.spelling.toList)), ?_⟩
  rw [Token.of_source_iff, String.toList_ofList]
  exact Cut.of_spaced genuine

theorem genuine_of_wraps {plain words : List Token} (related : ReflTransGen Wraps plain words)
    (genuine : AllGenuine words) : AllGenuine plain := by
  induction related with
  | refl => exact genuine
  | tail _ wraps induction =>
      obtain @⟨front, run, back, _, _, _, _, _, _⟩ := wraps
      refine induction fun token member => genuine token ?_
      simp only [List.mem_append, List.mem_cons] at member ⊢
      rcases member with (inFront | inRun) | inBack
      · exact .inl (.inl inFront)
      · exact .inl (.inr (.inl (.inr (.inr inRun))))
      · exact .inr inBack

namespace Root

variable {source : String} {root : Root}

theorem parse_of_same {source' : String} {words words' : List Token}
    (read : Token.ofSource source = .ok words) (read' : Token.ofSource source' = .ok words')
    (same : ∀ drafts, Source words drafts ↔ Source words' drafts)
    (parsed : parse source = .ok root) : parse source' = .ok root := by
  obtain ⟨_, drafts, symbols, also, holds, found, rfl⟩ := parse_eq_ok_iff.1 parsed
  obtain rfl := Except.ok.inj (also.symm.trans read)
  exact parse_eq_ok_iff.2 ⟨words', drafts, symbols, read', (same drafts).1 holds, found, rfl⟩

/-- A row of symbols of a source that is read may stand in a conditional block, and what is read is
the same tree. So it is for any blocks around any rows, put there and taken away in any order, and
all blocks of a source can be taken away. -/
theorem parse_wrapped (parsed : parse source = .ok root) :
    (∀ before inside after opening front run back guard condition drafts,
      source = before ++ inside ++ after → Parted before inside after front run back →
      Place .symbols (front.map Lexeme.token) (back.map Lexeme.token) →
      Source (run.map Lexeme.token) drafts → Guard guard condition →
      Token.ofSource opening = .ok (guard ++ [.mark .openBrace]) →
      parse (wrapped opening before inside after) = .ok root) ∧
    (∀ source' words words', Token.ofSource source = .ok words →
      Token.ofSource source' = .ok words' → EqvGen Wraps words words' →
      parse source' = .ok root) ∧
    ∃ source' words plain, Token.ofSource source = .ok words ∧ Token.ofSource source' = .ok plain ∧
      ReflTransGen Wraps plain words ∧ parse source' = .ok root ∧
      ∀ front guard back condition, plain = front ++ guard ++ .mark .openBrace :: back →
        ¬ Guard guard condition := by
  refine ⟨?_, ?_, ?_⟩
  · rintro before inside after opening front run back guard condition drafts rfl parted place holds
      guarded opens
    have read : Token.ofSource (before ++ inside ++ after) =
        .ok ((front ++ run ++ back).map Lexeme.token) := by
      rw [Token.ofSource, parted.scanned]
    have wraps := Wraps.intro place holds guarded
    rw [← List.map_append, ← List.map_append] at wraps
    have same := source_of_wraps (.rel _ _ wraps)
    exact parse_of_same read (tokens_of_wrapped parted opens) (by simpa using same) parsed
  · exact fun source' words words' read read' related =>
      parse_of_same read read' (source_of_wraps related) parsed
  · obtain ⟨words, drafts, symbols, read, holds, found, rfl⟩ := parse_eq_ok_iff.1 parsed
    obtain ⟨plain, holds', free, related⟩ := source_without_blocks holds
    obtain ⟨source', read'⟩ :=
      exists_source (genuine_of_wraps related (Token.of_source_iff.1 read).genuine)
    refine ⟨source', words, plain, read, read', related,
      parse_eq_ok_iff.2 ⟨plain, drafts, symbols, read', holds', found, rfl⟩, ?_⟩
    rintro front guard back condition rfl
    exact free.not_guard

def nestedRoot : Root := .ofChildren [.entry {
  name := "A"
  isMenu := false
  type := .hex
  inherited := .yes
  prompt := none
  defaults := []
  selects := []
  ranges := []
  dependsOn := []
  env := [⟨"B", .yes⟩] } [.entry ⟨"C", true, .string, .yes, none, [], [], [], [], []⟩ []]]

theorem nested_parted : Parted "config A hex\x7benv B " "menuconfig C string" "\x7d"
    [⟨.keyword .config, 0, 6⟩, ⟨.ident "A", 7, 8⟩, ⟨.keyword .hex, 9, 12⟩,
      ⟨.mark .openBrace, 12, 13⟩, ⟨.keyword .env, 13, 16⟩, ⟨.ident "B", 17, 18⟩]
    [⟨.keyword .menuconfig, 19, 29⟩, ⟨.ident "C", 30, 31⟩, ⟨.keyword .string, 32, 38⟩]
    [⟨.mark .closeBrace, 38, 39⟩] where
  scanned := by decide +kernel
  front := by decide
  run := by decide
  back := by decide

/-- In a block it follows a clause without a guard of its own, and is read all the same, whatever
the condition of the block. -/
theorem parse_wrapped_of_nested :
    parse ("config A hex\x7benv B " ++ "menuconfig C string" ++ "\x7d") = .ok nestedRoot ∧
    parse (wrapped "if[!X]\x7b" "config A hex\x7benv B " "menuconfig C string" "\x7d") =
      .ok nestedRoot ∧
    parse "config A hex\x7benv B if[]\x7bmenuconfig C string\x7d\x7d" = .ok nestedRoot := by
  have parsed : parse ("config A hex\x7benv B " ++ "menuconfig C string" ++ "\x7d") =
      .ok nestedRoot := by decide +kernel
  have clause : Star PropertyClause [.keyword .env, .ident "B"] [.env ⟨"B", .yes⟩] :=
    Language.star_one (.env "B" .none)
  have place := Place.entry .source (.config "A" .hex) clause .none
  have run := source_of_symbol (.config (.bare (.menuconfig "C" .string)))
  have operand := expression_of_unary (.not (.value (.ident "X" (by decide))))
  have opens : Token.ofSource "if[!X]\x7b" = .ok ([.keyword .guard, .mark .openBracket, .mark .not,
      .ident "X", .mark .closeBracket] ++ [.mark .openBrace]) := by decide +kernel
  obtain ⟨inBlock, related, -⟩ := parse_wrapped parsed
  refine ⟨parsed, inBlock _ _ _ _ _ _ _ _ _ _ rfl nested_parted place run
    (.intro (.intro (.some operand))) opens, ?_⟩
  have wraps := Wraps.intro place run (.intro (.intro .none))
  refine related _ _ _ ?_ ?_ (.rel _ _ wraps)
  · decide +kernel
  · decide +kernel

end Root

end KernelMenu

import Mathlib.Data.List.Basic
import KernelMenu.Proofs.SourceCutting

/-!
A source as tokens with gaps in front of them, between them and behind them. Other blanks may stand
in the gaps, if only there are some wherever there have been some: the source is cut into the same
tokens, for no token goes on across a blank, and what had no blank between it has stopped anyway.
-/

namespace KernelMenu

inductive Layout where
  | last (gap : List Char)
  | word (gap : List Char) (token : Token) (rest : Layout)

structure Refilled (gap gap' : List Char) : Prop where
  blank : ∀ char ∈ gap', isBlank char = true
  filled : gap ≠ [] → gap' ≠ []

theorem Refilled.of_test {gap gap' : List Char} (blank : gap'.all isBlank = true)
    (filled : (gap.isEmpty || !gap'.isEmpty) = true) : Refilled gap gap' where
  blank := List.all_eq_true.1 blank
  filled := by
    cases gap with
    | nil => exact fun some => absurd rfl some
    | cons char gap =>
        cases gap' with
        | nil => exact nomatch filled
        | cons => exact nofun

/-- If the text behind a gap still begins as it did, a token in front of the gap stops there. -/
theorem Refilled.stops {gap gap' back back' : List Char} (refilled : Refilled gap gap')
    (same : back'.head? = back.head?) {token : Token}
    (stops : ∀ char, (gap ++ back).head? = some char → token.stopsAt char = true) :
    ∀ char, (gap' ++ back').head? = some char → token.stopsAt char = true := by
  intro char first
  cases gap' with
  | cons other gap' =>
      obtain rfl := Option.some.inj first
      exact token.stops_at_blank (refilled.blank other List.mem_cons_self)
  | nil =>
      -- Where no gap is now, there was none before.
      have none : gap = [] :=
        Classical.byContradiction fun filled => refilled.filled filled rfl
      rw [List.nil_append, same] at first
      apply stops
      rwa [none, List.nil_append]

namespace Layout

def text : Layout → List Char
  | last gap => gap
  | word gap token rest => gap ++ (token.spelling.toList ++ rest.text)

def lexemesFrom (offset : Nat) : Layout → List Lexeme
  | last _ => []
  | word gap token rest =>
      let start := offset + byteCount gap
      let stop := start + token.spelling.utf8ByteSize
      ⟨token, start, stop⟩ :: rest.lexemesFrom stop

/-- The source that a layout shows. -/
def source (layout : Layout) : String := String.ofList layout.text

def lexemes (layout : Layout) : List Lexeme := layout.lexemesFrom 0

/-- The tokens stay, and each gap is filled with blanks again. -/
inductive Relaid : Layout → Layout → Prop
  | last {gap gap' : List Char} : Refilled gap gap' → Relaid (.last gap) (.last gap')
  | word {gap gap' : List Char} {rest rest' : Layout} (token : Token) :
      Refilled gap gap' → Relaid rest rest' → Relaid (.word gap token rest) (.word gap' token rest')

/-- The gaps are blank, and each token is read up to what comes behind it. -/
inductive Readable : Layout → Prop
  | last {gap : List Char} : (∀ char ∈ gap, isBlank char = true) → Readable (.last gap)
  | word {gap : List Char} {token : Token} {rest : Layout} :
      (∀ char ∈ gap, isBlank char = true) → token.Genuine →
      (∀ char, rest.text.head? = some char → token.stopsAt char = true) → Readable rest →
      Readable (.word gap token rest)

theorem Readable.scan {layout : Layout} (readable : layout.Readable) (offset : Nat) :
    Lexeme.scanFrom offset layout.text = .ok (layout.lexemesFrom offset) := by
  induction readable generalizing offset with
  | @last gap blank =>
      rw [text, ← List.append_nil gap, Lexeme.scan_from_gap blank, Lexeme.scanFrom]
      rfl
  | word blank genuine stops _ induction =>
      rw [text, Lexeme.scan_from_gap blank]
      exact Lexeme.scan_from_token (Token.scan_iff.2 ⟨genuine, stops⟩) (induction _)

theorem gap_of_scan {gap rest : List Char} {offset : Nat} {lexemes : List Lexeme}
    (scanned : Lexeme.scanFrom offset (gap ++ rest) = .ok lexemes)
    (later : ∀ lexeme ∈ lexemes, offset + byteCount gap ≤ lexeme.start) :
    (∀ char ∈ gap, isBlank char = true) ∧
      Lexeme.scanFrom (offset + byteCount gap) rest = .ok lexemes := by
  induction gap generalizing offset with
  | nil => exact ⟨nofun, scanned⟩
  | cons char gap induction =>
      by_cases blank : isBlank char = true
      · rw [List.cons_append, Lexeme.scan_from_blank blank] at scanned
        rw [byte_count_blank blank gap, ← Nat.add_assoc] at later ⊢
        obtain ⟨blanks, scanned⟩ := induction scanned later
        exact ⟨List.forall_mem_cons.2 ⟨blank, blanks⟩, scanned⟩
      · obtain ⟨first, others, after, rfl, -, start, -⟩ :=
          Lexeme.scan_from_visible blank scanned
        have bound := later first List.mem_cons_self
        have wide := byte_count_pos (List.cons_ne_nil char gap)
        omega

theorem scan_of_start {offset : Nat} {input : List Char} {first : Lexeme} {others : List Lexeme}
    (scanned : Lexeme.scanFrom offset input = .ok (first :: others))
    (starts : first.start = offset) :
    ∃ after, Token.scan? input = some (first.token, after) ∧
      Lexeme.scanFrom first.stop after = .ok others := by
  cases input with
  | nil =>
      rw [Lexeme.scanFrom] at scanned
      cases scanned
  | cons char input =>
      by_cases blank : isBlank char = true
      · rw [Lexeme.scan_from_blank blank] at scanned
        have later := (Lexeme.scan_from_starts scanned).1 first List.mem_cons_self
        omega
      · obtain ⟨other, others', after, same, found, -, -, scanned'⟩ :=
          Lexeme.scan_from_visible blank scanned
        obtain ⟨rfl, rfl⟩ := List.cons.inj same
        exact ⟨after, found, scanned'⟩

theorem readable_of_scan {layout : Layout} {offset : Nat}
    (scanned : Lexeme.scanFrom offset layout.text = .ok (layout.lexemesFrom offset)) :
    layout.Readable := by
  induction layout generalizing offset with
  | last gap =>
      rw [text, ← List.append_nil gap] at scanned
      exact .last (gap_of_scan scanned (List.forall_mem_nil _)).1
  | word gap token rest induction =>
      have ordered := List.pairwise_cons.1 (Lexeme.scan_from_starts scanned).2
      have later : ∀ lexeme ∈ (word gap token rest).lexemesFrom offset,
          offset + byteCount gap ≤ lexeme.start := by
        intro lexeme member
        rcases List.mem_cons.1 member with rfl | member
        · exact Nat.le_refl _
        · exact Nat.le_of_lt (ordered.1 lexeme member)
      obtain ⟨blank, scanned'⟩ := gap_of_scan scanned later
      obtain ⟨after, found, scanned''⟩ := scan_of_start scanned' rfl
      obtain rfl := List.append_cancel_left (Token.scan_spelling found)
      obtain ⟨genuine, stops⟩ := Token.scan_iff.1 found
      exact .word blank genuine stops (induction scanned'')

/-- Every source that can be cut has a layout. -/
theorem exists_layout {offset : Nat} {input : List Char} {lexemes : List Lexeme}
    (scanned : Lexeme.scanFrom offset input = .ok lexemes) :
    ∃ layout : Layout, layout.text = input ∧ layout.lexemesFrom offset = lexemes := by
  fun_induction Lexeme.scanFrom offset input generalizing lexemes with
  | case1 offset =>
      obtain rfl := Except.ok.inj scanned
      exact ⟨.last [], rfl, rfl⟩
  | case2 offset char rest blank induction =>
      obtain ⟨layout, shown, same⟩ := induction scanned
      have size := byte_count_blank blank
      cases layout with
      | last gap => exact ⟨.last (char :: gap), congrArg (char :: ·) shown, same⟩
      | word gap token others =>
          refine ⟨.word (char :: gap) token others, congrArg (char :: ·) shown, ?_⟩
          rw [lexemesFrom, size, ← Nat.add_assoc]
          exact same
  | case3 => cases scanned
  | case4 =>
      rename_i offset char rest notBlank token after found stop others scanned' induction
      obtain rfl := Except.ok.inj scanned
      obtain ⟨layout, shown, same⟩ := induction scanned'
      refine ⟨.word [] token layout, ?_, ?_⟩
      · rw [text, shown, List.nil_append, Token.scan_spelling found]
      · have none : byteCount [] = 0 := rfl
        simp only [lexemesFrom, none, Nat.add_zero]
        exact congrArg _ same
  | case5 => cases scanned

/-- What comes behind a token stops it in the new layout as well. -/
theorem Relaid.stops {layout layout' : Layout} (relaid : Relaid layout layout')
    (readable : layout.Readable) {token : Token}
    (stops : ∀ char, layout.text.head? = some char → token.stopsAt char = true) :
    ∀ char, layout'.text.head? = some char → token.stopsAt char = true := by
  cases relaid with
  | @last gap gap' refilled =>
      rw [text, ← List.append_nil gap] at stops
      rw [text, ← List.append_nil gap']
      exact refilled.stops rfl stops
  | word other refilled relaid =>
      cases readable with
      | word _ genuine ends _ =>
          have filled := Token.scan_spelling_ne_nil (Token.scan_iff.2 ⟨genuine, ends⟩)
          apply refilled.stops _ stops
          rw [List.head?_append_of_ne_nil _ filled, List.head?_append_of_ne_nil _ filled]

theorem Relaid.readable {layout layout' : Layout} (relaid : Relaid layout layout')
    (readable : layout.Readable) : layout'.Readable := by
  induction relaid with
  | last refilled => exact .last refilled.blank
  | word token refilled relaid induction =>
      cases readable with
      | word blank genuine stops readable =>
          exact .word refilled.blank genuine (relaid.stops readable stops) (induction readable)

end Layout

end KernelMenu

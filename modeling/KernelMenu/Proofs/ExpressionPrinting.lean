import KernelMenu.Proofs.Phrase
import KernelMenu.Proofs.PieceReading
import KernelMenu.Proofs.WellFormed

/-!
A printed expression is read back as itself: its parentheses stand where the grammar needs them,
and its text is cut into its tokens.
-/

namespace KernelMenu

open Grammar Piece

namespace Grammar.Phrase

/-- The operands that bind at least as tightly as the strength says. -/
def Operand : Nat → Language Expr
  | 0 | 1 => Expression
  | 2 => Conjunction
  | 3 => Comparison
  | _ => Unary

variable {word word' : List Token} {left right : Expr}

theorem expression_of_conjunction (holds : Conjunction word left) : Expression word left := by
  simpa using Expression.chain holds .nil

theorem conjunction_of_comparison (holds : Comparison word left) : Conjunction word left := by
  simpa using Conjunction.chain holds .nil

theorem operand_step {strength : Nat} (holds : Operand (strength + 1) word left) :
    Operand strength word left := by
  match strength with
  | 0 => exact holds
  | 1 => exact expression_of_conjunction holds
  | 2 => exact conjunction_of_comparison holds
  | 3 => exact .alone holds
  | _ + 4 => exact holds

theorem operand_of_le {weak strong : Nat} (le : weak ≤ strong) (holds : Operand strong word left) :
    Operand weak word left := by
  induction le with
  | refl => exact holds
  | step _ induction => exact induction (operand_step holds)

/-- One more operand of a chain that is grouped from the left. -/
theorem Expression.snoc (holds : Expression word left) (last : Conjunction word' right) :
    Expression (word ++ .mark .or :: word') (.or left right) := by
  cases holds with
  | chain first others =>
      have whole := Expression.chain first
          (Language.star_append others (Language.star_one (.intro last)))
      simpa using whole

theorem Conjunction.snoc (holds : Conjunction word left) (last : Comparison word' right) :
    Conjunction (word ++ .mark .and :: word') (.and left right) := by
  cases holds with
  | chain first others =>
      have whole := Conjunction.chain first
          (Language.star_append others (Language.star_one (.intro last)))
      simpa using whole

end Grammar.Phrase

namespace Expr

open Phrase

theorem tokens_enclose (needed : Bool) (inner : List Piece) :
    tokens (pieces.enclose needed inner) =
      if needed then .mark .openParen :: tokens inner ++ [.mark .closeParen] else tokens inner := by
  cases needed with
  | false => rfl
  | true =>
      simp only [pieces.enclose, if_true, tokens_append, List.cons_append, tokens_token]
      rfl

/-- In the place of an operand, parentheses make up for what binds too loosely. -/
theorem operand_of_enclose {expr : Expr} {place : Nat} (high : place ≤ 4)
    (holds : Operand expr.strength (tokens expr.pieces) expr) :
    Operand place (tokens (pieces.enclose (expr.strength < place) expr.pieces)) expr := by
  rw [tokens_enclose]
  by_cases loose : expr.strength < place
  · have inner : Expression (tokens expr.pieces) expr := operand_of_le (Nat.zero_le _) holds
    rw [if_pos (decide_eq_true loose)]
    exact operand_of_le high (.parens inner)
  · rw [if_neg (by simpa using loose)]
    exact operand_of_le (Nat.le_of_not_lt loose) holds

/-- A printed expression can stand wherever its strength allows it. -/
theorem operand_of_pieces {expr : Expr} (wellFormed : expr.WellFormed) :
    Operand expr.strength (tokens expr.pieces) expr := by
  induction wellFormed with
  | yes => exact .value .yes
  | mod => exact .value .mod
  | no => exact .value .no
  | id _ other => exact .value (.ident _ other)
  | literal => exact .value (.text _)
  | int => exact .value (.int _)
  | hex => exact .value (.hex _)
  | not _ induction => exact .not (operand_of_enclose (Nat.le_refl 4) induction)
  | and _ _ induction induction' =>
      have left := operand_of_enclose (show 2 ≤ 4 by decide) induction
      have right := operand_of_enclose (show 3 ≤ 4 by decide) induction'
      rw [pieces, List.append_assoc, tokens_append, tokens_append]
      exact Conjunction.snoc left right
  | or _ _ induction induction' =>
      have left := operand_of_enclose (show 1 ≤ 4 by decide) induction
      have right := operand_of_enclose (show 2 ≤ 4 by decide) induction'
      rw [pieces, List.append_assoc, tokens_append, tokens_append]
      exact Expression.snoc left right
  | eq _ _ induction induction' =>
      have left := operand_of_enclose (Nat.le_refl 4) induction
      have right := operand_of_enclose (Nat.le_refl 4) induction'
      rw [pieces, List.append_assoc, tokens_append, tokens_append]
      exact Comparison.eq left right
  | ne _ _ induction induction' =>
      have left := operand_of_enclose (Nat.le_refl 4) induction
      have right := operand_of_enclose (Nat.le_refl 4) induction'
      rw [pieces, List.append_assoc, tokens_append, tokens_append]
      exact Comparison.ne left right

theorem expression_of_pieces {expr : Expr} (wellFormed : expr.WellFormed) :
    Expression (tokens expr.pieces) expr :=
  operand_of_le (Nat.zero_le _) (operand_of_pieces wellFormed)

theorem value_of_leaf {expr : Expr} (wellFormed : expr.WellFormed) (leaf : expr.isLeaf = true) :
    Value (tokens expr.pieces) expr := by
  cases wellFormed with
  | yes => exact .yes
  | mod => exact .mod
  | no => exact .no
  | id _ other => exact .ident _ other
  | literal => exact .text _
  | int => exact .int _
  | hex => exact .hex _
  | not | and | or | eq | ne => exact nomatch leaf

/-- What may come right behind the sign of a negation. -/
def AfterNot (pieces : List Piece) : Prop :=
  ∃ char rest, chars pieces = char :: rest ∧ char ≠ '='

theorem AfterNot.append {front : List Piece} (after : AfterNot front) (back : List Piece) :
    AfterNot (front ++ back) := by
  obtain ⟨char, rest, same, other⟩ := after
  refine ⟨char, rest ++ chars back, ?_, other⟩
  rw [chars_append, same, List.cons_append]

theorem after_not_token {word : Token} (genuine : word.Genuine) (other : word ≠ .mark .eq)
    (back : List Piece) : AfterNot (.token word :: back) := by
  have found := Token.scan_of_spelling genuine (show ∀ char, [].head? = some char → _ from nofun)
  have filled := Token.scan_spelling_ne_nil found
  cases spelled : word.spelling.toList with
  | nil => exact absurd spelled filled
  | cons char rest =>
      refine ⟨char, rest ++ chars back, ?_, ?_⟩
      · rw [chars_cons, Piece.text, spelled, List.cons_append]
      · rintro rfl
        rw [spelled] at found
        exact other (Prod.mk.inj (Option.some.inj found)).1.symm

theorem leaf_token {expr : Expr} (wellFormed : expr.WellFormed) (leaf : expr.isLeaf = true) :
    ∃ word, expr.pieces = [.token word] ∧ word.Genuine ∧ ∀ sign, word ≠ .mark sign := by
  cases wellFormed with
  | yes => exact ⟨_, rfl, show PlainName "y" from by decide, nofun⟩
  | mod => exact ⟨_, rfl, show PlainName "m" from by decide, nofun⟩
  | no => exact ⟨_, rfl, show PlainName "n" from by decide, nofun⟩
  | id plain => exact ⟨_, rfl, plain, nofun⟩
  | literal units => exact ⟨_, rfl, units, nofun⟩
  | int signed => exact ⟨_, rfl, signed, nofun⟩
  | hex shaped => exact ⟨_, rfl, shaped, nofun⟩
  | not | and | or | eq | ne => exact nomatch leaf

theorem readable_leaf {expr : Expr} (wellFormed : expr.WellFormed) (leaf : expr.isLeaf = true) :
    Readable expr.pieces ∧ AfterNot expr.pieces := by
  obtain ⟨word, printed, genuine, other⟩ := leaf_token wellFormed leaf
  rw [printed]
  exact ⟨readable_token genuine (other .not), after_not_token genuine (other .eq) []⟩

theorem readable_enclose {inner : List Piece} (needed : Bool)
    (inside : Readable inner ∧ AfterNot inner) :
    Readable (pieces.enclose needed inner) ∧ AfterNot (pieces.enclose needed inner) := by
  cases needed with
  | false => exact inside
  | true =>
      have readable := readable_enclosed (show Mark.openParen ≠ .not by decide) inside.1
        (show Mark.closeParen ≠ .not by decide)
      exact ⟨readable, after_not_token (Token.genuine_mark _) (by decide) _⟩

theorem readable_negation {operand : List Piece} (inside : Readable operand ∧ AfterNot operand) :
    Readable (.token (.mark .not) :: operand) := by
  obtain ⟨char, after, same, other⟩ := inside.2
  intro rest endsWord
  have sign : CutsBefore [.token (.mark .not)] (chars operand ++ rest) := by
    apply cuts_token (Token.genuine_mark .not)
    intro first found
    rw [same] at found
    obtain rfl := Option.some.inj found
    simpa [Token.endsAt] using other
  have whole := cuts_append sign (inside.1 rest endsWord)
  rwa [List.singleton_append] at whole

theorem readable_around_spaced_sign {front back : List Piece} {sign : Mark} (other : sign ≠ .not)
    (first : Readable front) (second : Readable back) :
    Readable (front ++ pieces.spaced sign ++ back) := by
  have word : Readable [.token (.mark sign)] :=
    readable_token (Token.genuine_mark sign) (by simpa using other)
  have whole := readable_around_space first (readable_around_space word second)
  simpa [pieces.spaced] using whole

/-- The text of an expression is cut into its tokens, also behind the sign of a negation. -/
theorem readable_pieces {expr : Expr} (wellFormed : expr.WellFormed) :
    Readable expr.pieces ∧ AfterNot expr.pieces := by
  induction wellFormed with
  | yes => exact readable_leaf .yes rfl
  | mod => exact readable_leaf .mod rfl
  | no => exact readable_leaf .no rfl
  | id plain other => exact readable_leaf (.id plain other) rfl
  | literal units => exact readable_leaf (.literal units) rfl
  | int signed => exact readable_leaf (.int signed) rfl
  | hex shaped => exact readable_leaf (.hex shaped) rfl
  | @not operand _ induction =>
      have inside := readable_enclose (operand.strength < 4) induction
      exact ⟨readable_negation inside, after_not_token (Token.genuine_mark _) (by decide) _⟩
  | @and left right _ _ induction induction' =>
      have first := readable_enclose (left.strength < 2) induction
      have second := readable_enclose (right.strength < 3) induction'
      exact ⟨readable_around_spaced_sign (by decide) first.1 second.1,
        (first.2.append _).append _⟩
  | @or left right _ _ induction induction' =>
      have first := readable_enclose (left.strength < 1) induction
      have second := readable_enclose (right.strength < 2) induction'
      exact ⟨readable_around_spaced_sign (by decide) first.1 second.1,
        (first.2.append _).append _⟩
  | @eq left right _ _ induction induction' =>
      have first := readable_enclose (left.strength < 4) induction
      have second := readable_enclose (right.strength < 4) induction'
      have readable := readable_around_sign (show Mark.eq ≠ .not by decide) first.1 second.1
      rw [pieces, List.append_assoc]
      exact ⟨readable, first.2.append _⟩
  | @ne left right _ _ induction induction' =>
      have first := readable_enclose (left.strength < 4) induction
      have second := readable_enclose (right.strength < 4) induction'
      have readable := readable_around_sign (show Mark.ne ≠ .not by decide) first.1 second.1
      rw [pieces, List.append_assoc]
      exact ⟨readable, first.2.append _⟩

end Expr

end KernelMenu

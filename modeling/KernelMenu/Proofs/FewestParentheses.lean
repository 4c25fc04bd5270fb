import Mathlib.Data.List.Basic
import KernelMenu.Proofs.ExpressionPrinting
import KernelMenu.Proofs.ExpressionReading

/-!
An expression is printed with the fewest possible tokens. Wherever an operand stands, the grammar
asks for parentheses around all that binds too loosely there, and that is just where they are
printed.
-/

namespace KernelMenu

open Grammar Piece Phrase

namespace Expr

/-- The number of tokens that an expression is printed with in the place of an operand. -/
def lengthAt (place : Nat) (expr : Expr) : Nat :=
  (tokens (pieces.enclose (expr.strength < place) expr.pieces)).length

variable {expr left right : Expr} {place place' : Nat}

theorem strength_pos (expr : Expr) : 0 < expr.strength := by
  cases expr <;> simp [strength]

/-- Parentheses around what binds too loosely are all that a place adds. -/
theorem length_at_enclose : expr.lengthAt place =
    (tokens expr.pieces).length + if expr.strength < place then 2 else 0 := by
  rw [lengthAt, tokens_enclose]
  by_cases loose : expr.strength < place <;> simp [loose]

theorem length_at_of_tight (tight : place ≤ expr.strength) :
    expr.lengthAt place = (tokens expr.pieces).length := by
  rw [length_at_enclose, if_neg (Nat.not_lt_of_le tight), Nat.add_zero]

theorem length_at_mono (le : place ≤ place') : expr.lengthAt place ≤ expr.lengthAt place' := by
  rw [length_at_enclose, length_at_enclose]
  split <;> split <;> omega

theorem length_at_le (expr : Expr) (place : Nat) :
    expr.lengthAt place ≤ expr.lengthAt 1 + 2 := by
  rw [length_at_of_tight expr.strength_pos, length_at_enclose]
  split <;> omega

theorem length_at_or : (or left right).lengthAt 1 = left.lengthAt 1 + 1 + right.lengthAt 2 := by
  rw [length_at_of_tight (Nat.le_refl 1), pieces, tokens_append, tokens_append, List.length_append,
    List.length_append]
  rfl

theorem length_at_and : (and left right).lengthAt 2 = left.lengthAt 2 + 1 + right.lengthAt 3 := by
  rw [length_at_of_tight (Nat.le_refl 2), pieces, tokens_append, tokens_append, List.length_append,
    List.length_append]
  rfl

theorem length_at_eq : (eq left right).lengthAt 3 = left.lengthAt 4 + 1 + right.lengthAt 4 := by
  rw [length_at_of_tight (Nat.le_refl 3), pieces, tokens_append, tokens_append, List.length_append,
    List.length_append]
  rfl

theorem length_at_ne : (ne left right).lengthAt 3 = left.lengthAt 4 + 1 + right.lengthAt 4 := by
  rw [length_at_of_tight (Nat.le_refl 3), pieces, tokens_append, tokens_append, List.length_append,
    List.length_append]
  rfl

theorem length_at_not : (not left).lengthAt 4 = left.lengthAt 4 + 1 := by
  rw [length_at_of_tight (Nat.le_refl 4), pieces, tokens_token, List.length_cons]
  rfl

def rowLength (place : Nat) : List Expr → Nat
  | [] => 0
  | operand :: operands => operand.lengthAt place + 1 + rowLength place operands

/-- A row of operands that is grouped from the left needs no parentheses but those of the
operands. -/
theorem length_at_foldl {combine : Expr → Expr → Expr}
    (combined : ∀ left right : Expr,
      (combine left right).lengthAt place = left.lengthAt place + 1 + right.lengthAt place')
    (first : Expr) (others : List Expr) : (others.foldl combine first).lengthAt place =
      first.lengthAt place + rowLength place' others := by
  induction others generalizing first with
  | nil => rfl
  | cons other others induction =>
      rw [List.foldl_cons, induction, combined, rowLength]
      omega

end Expr

namespace Grammar

theorem Phrase.length_le_of_value {word : List Token} {value : Expr} (holds : Value word value) :
    value.lengthAt 4 ≤ word.length := by
  cases holds <;> exact Nat.le_refl 1

/-- No derivation of an expression has fewer tokens than its print-out, at any level of binding. -/
theorem Phrase.length_le_of_expression {word : List Token} {expr : Expr}
    (holds : Expression word expr) : expr.lengthAt 1 ≤ word.length := by
  refine @Expression.rec (fun word expr _ => expr.lengthAt 1 ≤ word.length)
    (fun word expr _ => expr.lengthAt 2 + 1 ≤ word.length)
    (fun word expr _ => expr.lengthAt 2 ≤ word.length)
    (fun word expr _ => expr.lengthAt 3 + 1 ≤ word.length)
    (fun word expr _ => expr.lengthAt 3 ≤ word.length)
    (fun word expr _ => expr.lengthAt 4 ≤ word.length)
    (fun word exprs _ => Expr.rowLength 2 exprs ≤ word.length)
    (fun word exprs _ => Expr.rowLength 3 exprs ≤ word.length)
    ?_ ?_ ?_ ?_ ?_ ?_ ?_ ?_ ?_ ?_ ?_ ?_ ?_ ?_ word expr holds
  · intro word words first others _ _ operand row
    rw [Expr.length_at_foldl (fun _ _ => Expr.length_at_or), List.length_append]
    have looser : first.lengthAt 1 ≤ first.lengthAt 2 := Expr.length_at_mono (by decide)
    omega
  · exact fun _ operand => Nat.succ_le_succ operand
  · intro word words first others _ _ operand row
    rw [Expr.length_at_foldl (fun _ _ => Expr.length_at_and), List.length_append]
    have looser : first.lengthAt 2 ≤ first.lengthAt 3 := Expr.length_at_mono (by decide)
    omega
  · exact fun _ operand => Nat.succ_le_succ operand
  · exact fun _ operand => Nat.le_trans (Expr.length_at_mono (by decide)) operand
  · intro front back left right _ _ first second
    rw [Expr.length_at_eq, List.length_append, List.length_cons]
    omega
  · intro front back left right _ _ first second
    rw [Expr.length_at_ne, List.length_append, List.length_cons]
    omega
  · intro word operand _ inner
    rw [Expr.length_at_not, List.length_cons]
    omega
  · intro word expr _ inner
    have enclosed := expr.length_at_le 4
    rw [List.length_append, List.length_cons, List.length_singleton]
    omega
  · exact fun holds => length_le_of_value holds
  · exact Nat.le_refl 0
  · intro _ _ _ _ _ _ first others
    rw [Expr.rowLength, List.length_append]
    exact Nat.add_le_add first others
  · exact Nat.le_refl 0
  · intro _ _ _ _ _ _ first others
    rw [Expr.rowLength, List.length_append]
    exact Nat.add_le_add first others

/-- What the rule for expressions takes from a list is an expression of the grammar. -/
theorem expression_of_ok {words : List Token} {expr : Expr} {used : Nat} {missed : Option Failure}
    (read : expression words = .ok expr used missed) :
    ∃ word rest, words = word ++ rest ∧ used = word.length ∧ Expression word expr := by
  have reads := (expression_reader (words.length + 1)).reads words (Nat.lt_succ_self _)
  rw [read] at reads
  cases reads with
  | ok split holds => exact ⟨_, _, split, rfl, holds⟩

/-- The rule for expressions takes the whole of an expression, if nothing comes behind it. -/
theorem ok_of_expression {words : List Token} {expr : Expr} (holds : Expression words expr) :
    ∃ missed, expression words = .ok expr words.length missed := by
  have reads := (expression_reader (words.length + 1)).reads words (Nat.lt_succ_self _)
  generalize expression words = outcome at reads
  cases reads with
  | fail none => exact absurd holds (none words [] expr (List.append_nil words).symm)
  | @ok word rest value missed split _ _ longest only =>
      rcases longest words [] expr (List.append_nil words).symm holds with whole | blocked
      · obtain rfl : rest = [] := by
          have size := congrArg List.length split
          rw [List.length_append] at size
          exact List.length_eq_zero_iff.1 (by omega)
        rw [List.append_nil] at split
        subst split
        rw [only expr holds]
        exact ⟨missed, rfl⟩
      · exact nomatch blocked.2

end Grammar

theorem Expr.tokens_of_text {expr : Expr} (wellFormed : expr.WellFormed) :
    Token.ofSource expr.text = .ok (tokens expr.pieces) := by
  obtain ⟨lexemes, scanned, same⟩ :=
    of_source_render ((readable_pieces wellFormed).1 [] nofun)
  rw [Token.ofSource, text, scanned, ← same]

/-- An expression is read back from its text, and from no list that has fewer tokens than the text;
so without a pair of its parentheses the text would not be read as the expression. -/
theorem Expr.fewest_parentheses {expr : Expr} (wellFormed : expr.WellFormed) :
    ∃ words, Token.ofSource expr.text = .ok words ∧
      (∃ missed, expression words = .ok expr words.length missed) ∧
      (∀ others used missed, expression others = .ok expr used missed →
        words.length ≤ used ∧ used ≤ others.length) ∧
      ∀ front inner back,
        words = front ++ .mark .openParen :: inner ++ .mark .closeParen :: back →
        ∀ used missed, expression (front ++ inner ++ back) ≠ .ok expr used missed := by
  have holds := expression_of_pieces wellFormed
  have fewest : ∀ others used missed, expression others = .ok expr used missed →
      (tokens expr.pieces).length ≤ used ∧ used ≤ others.length := by
    intro others used missed read
    obtain ⟨word, rest, rfl, rfl, holds'⟩ := expression_of_ok read
    have least := length_le_of_expression holds'
    rw [length_at_of_tight expr.strength_pos] at least
    exact ⟨least, by simp⟩
  refine ⟨_, tokens_of_text wellFormed, ok_of_expression holds, fewest, ?_⟩
  intro front inner back split used missed read
  obtain ⟨least, most⟩ := fewest _ used missed read
  rw [split] at least
  simp only [List.length_append, List.length_cons] at least most
  omega

/-- A comparison that is negated has its parentheses in every list that it is read from. -/
theorem Expr.fewest_parentheses_negation : ∃ words, Token.ofSource "!(N!=-1)" = .ok words ∧
    words.length = 6 ∧ ∀ others used missed,
      expression others = .ok (.not (.ne (.id "N") (.int "-1"))) used missed → 6 ≤ used := by
  have wellFormed : (not (ne (id "N") (int "-1"))).WellFormed :=
    .not (.ne (.id (by decide) (by decide)) (.int (.negative (by decide))))
  obtain ⟨words, cut, -, fewest, -⟩ := fewest_parentheses wellFormed
  obtain rfl : words = [.mark .not, .mark .openParen, .ident "N", .mark .ne, .int "-1",
      .mark .closeParen] := by
    have cut' : Token.ofSource "!(N!=-1)" = .ok [.mark .not, .mark .openParen, .ident "N",
      .mark .ne, .int "-1", .mark .closeParen] := by decide +kernel
    exact Except.ok.inj (cut.symm.trans cut')
  exact ⟨_, cut, rfl, fun others used missed read => (fewest others used missed read).1⟩

end KernelMenu

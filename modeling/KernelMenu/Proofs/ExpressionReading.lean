import KernelMenu.Proofs.Balance

/-!
The rules for expressions read the expressions of the grammar.
-/

namespace KernelMenu.Grammar

open KernelMenu.Grammar.Language

theorem Phrase.value_of_name (name : String) : Value [.ident name] (.ofName name) := by
  unfold Expr.ofName
  split
  case isTrue same =>
    rw [same]
    exact .yes
  case isFalse notYes =>
    split
    case isTrue same =>
      rw [same]
      exact .mod
    case isFalse notMod =>
      split
      case isTrue same =>
        rw [same]
        exact .no
      case isFalse notNo => exact .ident name (by simp [notYes, notMod, notNo])

theorem value_reader (bound : Nat) : Reader bound value Phrase.Value (.one .classed) := by
  apply Reader.classified bound
  · intro token
    cases token <;> simp [TokenClass.Has]
  · intro word found
    constructor
    · intro holds
      cases holds with
      | ident name other =>
          obtain ⟨notYes, notMod, notNo⟩ : name ≠ "y" ∧ name ≠ "m" ∧ name ≠ "n" := by
            simpa using other
          exact ⟨_, rfl, by simp [Expr.ofName, notYes, notMod, notNo]⟩
      | yes | mod | no | int | hex | text => exact ⟨_, rfl, rfl⟩
    · rintro ⟨token, rfl, meant⟩
      cases token with
      | ident name =>
          cases meant
          exact Phrase.value_of_name name
      | text | hex | int =>
          cases meant
          constructor
      | keyword | mark => cases meant

theorem quoted_text_reader (bound : Nat) :
    Reader bound quotedText (fun word text => word = [.text text]) (.one .classed) := by
  apply Reader.classified bound
  · intro token
    cases token <;> simp [TokenClass.Has]
  · intro word found
    constructor
    · rintro rfl
      exact ⟨_, rfl, rfl⟩
    · rintro ⟨token, rfl, meant⟩
      cases token with
      | text => cases meant; rfl
      | _ => cases meant

theorem identifier_reader (bound : Nat) :
    Reader bound identifier (fun word name => word = [.ident name]) (.one .classed) := by
  apply Reader.classified bound
  · intro token
    cases token <;> simp [TokenClass.Has]
  · intro word found
    constructor
    · rintro rfl
      exact ⟨_, rfl, rfl⟩
    · rintro ⟨token, rfl, meant⟩
      cases token with
      | ident => cases meant; rfl
      | _ => cases meant

theorem mark_reader (bound : Nat) (sign : Mark) :
    Reader bound (mark sign) (token (.mark sign)) (.one (.mark sign)) :=
  Reader.exactly bound (show (Token.mark sign).kind ≠ .classed from nofun)

namespace Phrase

theorem unary_first {word : List Token} {value : Expr} (holds : Unary word value) :
    ∃ token rest, word = token :: rest ∧
      token.kind ∈ [Kind.mark .not, .classed, .mark .openParen] := by
  cases holds with
  | not operand => exact ⟨_, _, rfl, by decide⟩
  | parens inner => exact ⟨_, _, rfl, by decide⟩
  | value holds =>
      obtain ⟨token, rfl, classed⟩ := holds.exists_token
      exact ⟨token, [], rfl, by rw [classed]; decide⟩

theorem expression_first {word : List Token} {value : Expr} (holds : Expression word value) :
    ∃ token rest, word = token :: rest ∧
      token.kind ∈ [Kind.mark .not, .classed, .mark .openParen] := by
  cases holds with
  | chain first others =>
  cases first with
  | chain first others' =>
  cases first with
  | alone operand =>
      obtain ⟨token, rest, rfl, known⟩ := unary_first operand
      exact ⟨token, _, rfl, known⟩
  | eq left right =>
      obtain ⟨token, rest, rfl, known⟩ := unary_first left
      exact ⟨token, _, rfl, known⟩
  | ne left right =>
      obtain ⟨token, rest, rfl, known⟩ := unary_first left
      exact ⟨token, _, rfl, known⟩

theorem expression_of_unary {word : List Token} {value : Expr} (holds : Unary word value) :
    Expression word value := by
  have whole : Expression ((word ++ []) ++ []) value :=
    .chain (.chain (.alone holds) .nil) .nil
  simpa using whole

end Phrase

def expressionShape : Shape :=
  ⟨[.mark .not, .classed, .mark .openParen], .mark .openParen :: Phrase.signKinds, false, false⟩

/-- Inside parentheses one may not close before the expression ends. -/
theorem expression_shaped : Shaped Phrase.Expression expressionShape where
  inhabited := ⟨_, _, Phrase.expression_of_unary (.value .yes)⟩
  first := by
    rintro token ⟨rest, value, holds⟩
    obtain ⟨other, rest', same, known⟩ := Phrase.expression_first holds
    obtain rfl : token = other := (List.cons.inj same).1
    exact known
  next := by
    rintro word value token holds ⟨rest, value', holds'⟩
    rw [List.append_assoc] at holds'
    have known := Phrase.expression_within holds' token (by simp)
    rcases List.mem_cons.1 known with opening | known
    · exact List.mem_cons.2 (.inl opening)
    rcases List.mem_cons.1 known with closing | known
    · obtain rfl := Token.eq_mark_of_kind closing
      exact ((Phrase.expression_balanced holds).not_closing (Phrase.expression_balanced holds')
        (by decide)).elim
    · exact List.mem_cons_of_mem _ known
  filled := by
    intro _ value holds
    obtain ⟨token, rest, same, -⟩ := Phrase.expression_first holds
    exact nomatch same
  guardless := by
    intro _ word value holds
    exact (Phrase.expression_within holds).not_mem (by decide)

def Phrase.Atom : Language Expr := Value.either (Expression.enclosed .openParen .closeParen)

theorem Phrase.unary_of_atom {word : List Token} {operand : Expr} (holds : Atom word operand) :
    Unary word operand := by
  rcases holds with holds | holds
  · exact .value holds
  · obtain ⟨inner, rfl, holds'⟩ := enclosed_iff.1 holds
    exact .parens holds'

/-- A negated operand is any number of signs and an operand without one. -/
theorem Phrase.unary_iff {word : List Token} {value : Expr} :
    Unary word value ↔ (((Star (token (.mark .not))).both Atom).map fun (signs, operand) =>
      signs.foldr (fun _ operand => .not operand) operand) word value := by
  constructor
  · intro holds
    induction word generalizing value with
    | nil =>
        obtain ⟨token, rest, same, -⟩ := unary_first holds
        exact nomatch same
    | cons head tail induction =>
        cases holds with
        | not holds =>
            obtain ⟨⟨signs, operand⟩, ⟨front, back, rfl, first, second⟩, rfl⟩ := induction holds
            have sign : token (.mark .not) [.mark .not] (.mark .not) := token_iff.2 ⟨rfl, rfl⟩
            exact ⟨(_ :: signs, operand), ⟨_, back, rfl, .cons sign first, second⟩, rfl⟩
        | parens inner =>
            exact ⟨([], value), ⟨[], _, rfl, .nil, .inr (enclosed_iff.2 ⟨_, rfl, inner⟩)⟩, rfl⟩
        | value holds => exact ⟨([], value), ⟨[], _, rfl, .nil, .inl holds⟩, rfl⟩
  · rintro ⟨⟨signs, operand⟩, ⟨front, back, rfl, first, second⟩, rfl⟩
    dsimp only at first second ⊢
    induction first with
    | nil => exact unary_of_atom second
    | cons sign rest induction =>
        obtain ⟨rfl, -⟩ := token_iff.1 sign
        exact .not induction

theorem Phrase.comparison_iff {word : List Token} {value : Expr} : Comparison word value ↔
    ((Unary.both (Maybe ((((token (.mark .eq)).map fun _ => Expr.eq).either
      ((token (.mark .ne)).map fun _ => Expr.ne)).both Unary))).map fun
        | (left, some (compare, right)) => compare left right
        | (left, none) => left) word value := by
  constructor
  · intro holds
    cases holds with
    | alone operand =>
        exact ⟨(value, none), ⟨word, [], (List.append_nil word).symm, operand, .none⟩, rfl⟩
    | @eq front back left right first second =>
        refine ⟨(left, some (.eq, right)), ⟨front, .mark .eq :: back, rfl, first, .some ?_⟩, rfl⟩
        exact ⟨[_], back, rfl, .inl ⟨_, token_iff.2 ⟨rfl, rfl⟩, rfl⟩, second⟩
    | @ne front back left right first second =>
        refine ⟨(left, some (.ne, right)), ⟨front, .mark .ne :: back, rfl, first, .some ?_⟩, rfl⟩
        exact ⟨[_], back, rfl, .inr ⟨_, token_iff.2 ⟨rfl, rfl⟩, rfl⟩, second⟩
  · rintro ⟨⟨left, right⟩, ⟨front, back, rfl, first, second⟩, rfl⟩
    dsimp only at first second ⊢
    cases second with
    | none => simpa using Comparison.alone first
    | @some _ pair second =>
        obtain ⟨compare, right⟩ := pair
        obtain ⟨sign, back, rfl, signed, second⟩ := second
        rcases signed with ⟨_, signed, rfl⟩ | ⟨_, signed, rfl⟩
        · obtain ⟨rfl, -⟩ := token_iff.1 signed
          exact .eq first second
        · obtain ⟨rfl, -⟩ := token_iff.1 signed
          exact .ne first second

/-- A chain of operands with a sign between them, grouped from the left. -/
def Chain (sign : Mark) (combine : Expr → Expr → Expr) (operand : Language Expr) :
    Language Expr :=
  (operand.both (Star ((token (.mark sign)).before operand))).map fun (first, others) =>
    others.foldl combine first

theorem Phrase.conjunction_iff {word : List Token} {value : Expr} :
    Conjunction word value ↔ Chain .and .and Comparison word value := by
  have same : (token (.mark .and)).before Comparison = Conjunct := by
    refine Language.same fun word value => before_token_iff.trans ⟨?_, fun holds => ?_⟩
    · rintro ⟨rest, rfl, holds⟩
      exact .intro holds
    · cases holds with
      | intro holds => exact ⟨_, rfl, holds⟩
  rw [Chain, same]
  constructor
  · intro holds
    cases holds with
    | chain first others => exact ⟨(_, _), ⟨_, _, rfl, first, others⟩, rfl⟩
  · rintro ⟨⟨first, others⟩, ⟨front, back, rfl, holds, holds'⟩, rfl⟩
    exact .chain holds holds'

theorem Phrase.expression_iff {word : List Token} {value : Expr} :
    Expression word value ↔ Chain .or .or Conjunction word value := by
  have same : (token (.mark .or)).before Conjunction = Alternative := by
    refine Language.same fun word value => before_token_iff.trans ⟨?_, fun holds => ?_⟩
    · rintro ⟨rest, rfl, holds⟩
      exact .intro holds
    · cases holds with
      | intro holds => exact ⟨_, rfl, holds⟩
  rw [Chain, same]
  constructor
  · intro holds
    cases holds with
    | chain first others => exact ⟨(_, _), ⟨_, _, rfl, first, others⟩, rfl⟩
  · rintro ⟨⟨first, others⟩, ⟨front, back, rfl, holds, holds'⟩, rfl⟩
    exact .chain holds holds'

section Levels

variable {bound : Nat} {expr : Rule Expr}

theorem atom_reader (reader : Reader bound expr Phrase.Expression expressionShape) :
    Reader (bound + 1) (atom expr) Phrase.Atom ⟨[.classed, .mark .openParen], [], false, false⟩ :=
  (value_reader (bound + 1)).orElse
    (reader.enclosed_of_apart .openParen .closeParen rfl (by decide))
    (by decide) rfl rfl

theorem negation_reader (reader : Reader bound expr Phrase.Expression expressionShape) :
    Reader (bound + 1) (negation expr) Phrase.Unary
      ⟨[.mark .not, .classed, .mark .openParen], [], false, false⟩ := by
  have signs := (mark_reader (bound + 1) .not).many rfl (by decide) rfl
  have whole := (signs.both (atom_reader reader) (by decide) rfl rfl).map
    fun (signs, operand) => signs.foldr (fun _ operand => Expr.not operand) operand
  exact whole.congr fun _ _ => Phrase.unary_iff

theorem comparison_reader (reader : Reader bound expr Phrase.Expression expressionShape) :
    Reader (bound + 1) (comparison expr) Phrase.Comparison
      ⟨[.mark .not, .classed, .mark .openParen], [.mark .eq, .mark .ne], false, false⟩ := by
  have operand := negation_reader reader
  have equal := (mark_reader (bound + 1) .eq).map fun _ => Expr.eq
  have unequal := (mark_reader (bound + 1) .ne).map fun _ => Expr.ne
  have sign := equal.orElse unequal (by decide) rfl rfl
  have right := (sign.both operand (by decide) rfl rfl).optional rfl
  exact ((operand.both right (by decide) rfl rfl).map _).congr fun _ _ => Phrase.comparison_iff

theorem chain_reader {language : Language Expr} {shape : Shape} {sign : Mark}
    {combine : Expr → Expr → Expr} {operand : Rule Expr}
    (reader : Reader bound operand language shape) (filled : shape.empty = false)
    (apart : .mark sign ∉ shape.nexts) (none : shape.guards = false) :
    Reader bound (chain sign combine operand) (Chain sign combine language)
      ⟨shape.firsts, shape.nexts ++ [.mark sign] ++ shape.nexts, false, false⟩ := by
  have onlySign : ∀ kind ∈ shape.nexts, kind ∉ [Kind.mark sign] := by
    intro kind member same
    rw [List.mem_singleton.1 same] at member
    exact apart member
  have later := ((mark_reader bound sign).both reader nofun rfl none).map Prod.snd
  have known : (Shape.one (.mark sign)).both shape = ⟨[.mark sign], shape.nexts, false, false⟩ := by
    simp [Shape.both, Shape.one, filled, none]
  rw [known] at later
  have others := later.many rfl onlySign rfl
  have whole := (reader.both others onlySign none rfl).map fun (first, others) =>
    others.foldl combine first
  have known' : shape.both (Shape.repeated ⟨[.mark sign], shape.nexts, false, false⟩) =
      ⟨shape.firsts, shape.nexts ++ [.mark sign] ++ shape.nexts, false, false⟩ := by
    simp [Shape.both, Shape.repeated, filled, none]
  rw [known'] at whole
  exact whole

theorem disjunction_reader (reader : Reader bound expr Phrase.Expression expressionShape) :
    Reader (bound + 1) (disjunction expr) Phrase.Expression
      ⟨[.mark .not, .classed, .mark .openParen],
        [.mark .eq, .mark .ne, .mark .and, .mark .eq, .mark .ne, .mark .or, .mark .eq, .mark .ne,
          .mark .and, .mark .eq, .mark .ne], false, false⟩ := by
  have conjunction : Reader (bound + 1) (conjunction expr) Phrase.Conjunction _ :=
    (chain_reader (comparison_reader reader) rfl (by decide) rfl).congr
      fun _ _ => Phrase.conjunction_iff
  exact (chain_reader conjunction rfl (by decide) rfl).congr fun _ _ => Phrase.expression_iff

end Levels

theorem expression_reader (bound : Nat) :
    Reader bound expression Phrase.Expression expressionShape where
  reads := by
    refine ReadsBelow.recursive (fun bound rule reads => ?_) bound
    exact (disjunction_reader ⟨reads, expression_shaped⟩).reads
  shaped := expression_shaped

def bracketedShape : Shape := ⟨[.mark .openBracket], [], false, false⟩

theorem Phrase.bracketed_iff {word : List Token} {value : Expr} : Bracketed word value ↔
    ((Language.enclosed .openBracket .closeBracket (Maybe Expression)).map (Option.getD · .yes))
      word value := by
  constructor
  · intro holds
    cases holds with
    | intro inner => exact ⟨_, enclosed_iff.2 ⟨_, rfl, inner⟩, rfl⟩
  · rintro ⟨inner, holds, rfl⟩
    obtain ⟨word, rfl, holds'⟩ := enclosed_iff.1 holds
    exact .intro holds'

theorem bracketed_reader (bound : Nat) :
    Reader bound bracketed Phrase.Bracketed bracketedShape := by
  have inner := (expression_reader bound).optional rfl
  have whole := (inner.enclosed_of_apart .openBracket .closeBracket rfl (by decide)).map
    (Option.getD · Expr.yes)
  exact (whole.congr fun _ _ => Phrase.bracketed_iff).mono (Nat.le_succ bound)

end KernelMenu.Grammar

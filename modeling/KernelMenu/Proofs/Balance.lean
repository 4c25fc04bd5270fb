import KernelMenu.Proofs.Reader

/-!
Which tokens occur in the words of a phrase, and that parentheses and braces are balanced in them.
So a closing sign never goes on where a whole phrase ends.
-/

namespace KernelMenu.Grammar

/-- As many closing signs as opening ones, and never more of them in a front. -/
def Balanced (opening closing : Token) (word : List Token) : Prop :=
  word.count closing = word.count opening ∧
    ∀ front back, word = front ++ back → front.count closing ≤ front.count opening

namespace Balanced

variable {opening closing : Token} {word : List Token}

theorem nil : Balanced opening closing [] := by
  refine ⟨rfl, fun front back split => ?_⟩
  rw [(List.append_eq_nil_iff.1 split.symm).1]
  exact Nat.le_refl _

theorem single {token : Token} (notOpening : token ≠ opening) (notClosing : token ≠ closing) :
    Balanced opening closing [token] := by
  refine ⟨by simp [notOpening, notClosing], fun front back split => ?_⟩
  have counted := congrArg (List.count closing) split
  simp only [List.count_append, List.count_singleton, beq_iff_eq, notClosing, if_false] at counted
  omega

theorem append {front back : List Token} (left : Balanced opening closing front)
    (right : Balanced opening closing back) : Balanced opening closing (front ++ back) := by
  refine ⟨?_, fun start rest split => ?_⟩
  · rw [List.count_append, List.count_append, left.1, right.1]
  · rcases List.append_eq_append_iff.1 split with ⟨spill, rfl, same⟩ | ⟨spill, same, -⟩
    · have inner := right.2 spill rest same
      rw [List.count_append, List.count_append, left.1]
      omega
    · exact left.2 start spill same

theorem enclosed (different : opening ≠ closing) (inner : Balanced opening closing word) :
    Balanced opening closing (opening :: word ++ [closing]) := by
  refine ⟨?_, fun front back split => ?_⟩
  · have reverse := different.symm
    simp [inner.1, different, reverse]
  · rcases front with _ | ⟨token, front⟩
    · exact Nat.le_refl _
    obtain ⟨rfl, same⟩ := List.cons.inj split
    have counted : front.count closing ≤ front.count opening + 1 := by
      rcases List.append_eq_append_iff.1 same with ⟨spill, rfl, same'⟩ | ⟨spill, rfl, -⟩
      · have last := congrArg (List.count closing) same'
        simp only [List.count_append, List.count_singleton_self] at last
        rw [List.count_append, List.count_append, inner.1]
        omega
      · have most := inner.2 front spill rfl
        omega
    rw [List.count_cons_self, List.count_cons_of_ne different]
    exact counted

theorem not_closing {rest : List Token} (front : Balanced opening closing word)
    (whole : Balanced opening closing (word ++ closing :: rest)) (different : opening ≠ closing) :
    False := by
  have most := whole.2 (word ++ [closing]) rest (by simp)
  rw [List.count_append, List.count_append, front.1, List.count_singleton_self,
    List.count_singleton, if_neg (by simpa using different.symm)] at most
  omega

end Balanced

def Within (kinds : List Kind) (word : List Token) : Prop := ∀ token ∈ word, token.kind ∈ kinds

namespace Within

variable {kinds : List Kind} {front back word : List Token}

theorem append (left : Within kinds front) (right : Within kinds back) :
    Within kinds (front ++ back) := by
  intro token member
  rcases List.mem_append.1 member with member | member
  · exact left token member
  · exact right token member

theorem mono {more : List Kind} (within : Within kinds word) (fewer : kinds ⊆ more) :
    Within more word := fun token member => fewer (within token member)

theorem cons {token : Token} (head : token.kind ∈ kinds) (within : Within kinds word) :
    Within kinds (token :: word) := by
  intro other member
  rcases List.mem_cons.1 member with rfl | member
  · exact head
  · exact within other member

theorem not_mem {token : Token} (within : Within kinds word) (other : token.kind ∉ kinds) :
    token ∉ word := fun member => other (within token member)

end Within

namespace Phrase

def signKinds : List Kind := [.classed, .mark .not, .mark .and, .mark .or, .mark .eq, .mark .ne]

def expressionKinds : List Kind := .mark .openParen :: .mark .closeParen :: signKinds

def bracketedKinds : List Kind := .mark .openBracket :: .mark .closeBracket :: expressionKinds

theorem Value.exists_token {word : List Token} {value : Expr} (holds : Value word value) :
    ∃ token, word = [token] ∧ token.kind = .classed := by
  cases holds <;> exact ⟨_, rfl, rfl⟩

/-- What goes over from parts to sequences holds of expressions. -/
theorem expression_word {Holds : List Token → Prop} (nothing : Holds [])
    (append : ∀ front back, Holds front → Holds back → Holds (front ++ back))
    (single : ∀ token, token.kind ∈ signKinds → Holds [token])
    (parens : ∀ word, Holds word → Holds (.mark .openParen :: word ++ [.mark .closeParen]))
    {word : List Token} {value : Expr} (holds : Expression word value) : Holds word := by
  have sign : ∀ (sign : Mark) (word : List Token), (Token.mark sign).kind ∈ signKinds →
      Holds word → Holds (.mark sign :: word) :=
    fun sign word known holds => append [.mark sign] word (single _ known) holds
  refine @Expression.rec (fun word _ _ => Holds word) (fun word _ _ => Holds word)
    (fun word _ _ => Holds word) (fun word _ _ => Holds word) (fun word _ _ => Holds word)
    (fun word _ _ => Holds word) (fun word _ _ => Holds word) (fun word _ _ => Holds word)
    ?_ ?_ ?_ ?_ ?_ ?_ ?_ ?_ ?_ ?_ nothing ?_ nothing ?_ word value holds
  · exact fun _ _ first others => append _ _ first others
  · exact fun _ operand => sign .or _ (by decide) operand
  · exact fun _ _ first others => append _ _ first others
  · exact fun _ operand => sign .and _ (by decide) operand
  · exact fun _ operand => operand
  · exact fun _ _ left right => append _ _ left (sign .eq _ (by decide) right)
  · exact fun _ _ left right => append _ _ left (sign .ne _ (by decide) right)
  · exact fun _ operand => sign .not _ (by decide) operand
  · exact fun _ inner => parens _ inner
  · intro word value holds
    obtain ⟨token, rfl, classed⟩ := holds.exists_token
    exact single token (by rw [classed]; decide)
  · exact fun _ _ first rest => append _ _ first rest
  · exact fun _ _ first rest => append _ _ first rest

theorem expression_within {word : List Token} {value : Expr} (holds : Expression word value) :
    Within expressionKinds word := by
  refine expression_word nofun (fun _ _ => .append) ?_ ?_ holds
  · intro token known
    exact .cons (List.mem_cons_of_mem _ (List.mem_cons_of_mem _ known)) nofun
  · intro word within
    exact .append (.cons (by decide) within) (.cons (by decide) nofun)

theorem expression_balanced {word : List Token} {value : Expr} (holds : Expression word value) :
    Balanced (.mark .openParen) (.mark .closeParen) word := by
  refine expression_word .nil (fun _ _ => .append) ?_ ?_ holds
  · intro token known
    refine .single ?_ ?_ <;>
    · rintro rfl
      exact absurd known (by decide)
  · exact fun word inner => inner.enclosed (by decide)

theorem bracketed_within {word : List Token} {value : Expr} (holds : Bracketed word value) :
    Within bracketedKinds word := by
  cases holds with
  | intro inner =>
      refine .append (.cons (by decide) ?_) (.cons (by decide) nofun)
      cases inner with
      | none => exact nofun
      | some inner => exact (expression_within inner).mono (by decide)

end Phrase

end KernelMenu.Grammar

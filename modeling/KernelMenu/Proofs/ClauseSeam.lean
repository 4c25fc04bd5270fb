import KernelMenu.Proofs.PropertyReading

/-!
The seam between clauses and the symbols behind them. A guard keyword behind a payload may begin
the guard of the clause or the head of a conditional block; which one it is shows when the brackets
close, by the brace behind a head. The rules see it at the same place, so the seam is sound.
-/

namespace KernelMenu.Grammar

open KernelMenu.Grammar.Language

variable {Value Value' : Type}

/-- Each guard keyword stands behind a payload and begins a whole guard. -/
def GuardsWhole (word : List Token) : Prop :=
  ∀ before after, word = before ++ .keyword .guard :: after → BehindPayload before ∧
    ∃ guard more condition, .keyword .guard :: after = guard ++ more ∧
      Phrase.Guard guard condition

theorem GuardsWhole.of_plain {word : List Token} (plain : .keyword .guard ∉ word) :
    GuardsWhole word := by
  rintro before after rfl
  exact absurd (List.mem_append_right before List.mem_cons_self) plain

theorem GuardsWhole.append {front back : List Token} (left : GuardsWhole front)
    (right : GuardsWhole back) : GuardsWhole (front ++ back) := by
  intro before after split
  rcases append_compare split with ⟨item, spill, rfl, same⟩ | ⟨spill, rfl, same⟩
  · obtain ⟨behind, whole⟩ := right (item :: spill) after same
    exact ⟨behind.append front, whole⟩
  · rcases spill with _ | ⟨item, spill⟩
    · rw [List.append_nil] at left
      obtain ⟨behind, whole⟩ := right [] after same.symm
      exact absurd behind not_behind_payload_nil
    · obtain ⟨rfl, rfl⟩ := List.cons.inj same
      obtain ⟨behind, guard, more, condition, same', holds⟩ := left before spill rfl
      refine ⟨behind, guard, more ++ back, condition, ?_, holds⟩
      rw [← List.append_assoc, ← same']
      rfl

def Phrase.clauseKinds : List Kind :=
  .keyword .guard :: .keyword .inherited :: nameKinds ++ payloadKinds

/-- Clauses in a row: guards are whole, there is no brace, a guard may be added to a payload, and
the clauses may end behind any guard. -/
structure Clauses (language : Language Value) : Prop where
  whole : ∀ word value, language word value → GuardsWhole word
  within : ∀ word value, language word value → Within Phrase.clauseKinds word
  extend : ∀ word value guard condition, language word value → BehindPayload word →
    Phrase.Guard guard condition → ∃ value', language (word ++ guard) value'
  stop : ∀ front back value, language (front ++ back) value → BehindGuard front →
    ∃ value', language front value'

/-- What may stand behind clauses: its first token is no part of a clause, and a guard keyword
there begins the head of a block. -/
structure Blocks (language : Language Value) : Prop where
  plain : ∀ token, language.Viable [token] → token.kind ∉ Phrase.payloadKinds
  brace : ¬ language.Viable [.mark .openBrace]
  head : ∀ after value, language (.keyword .guard :: after) value →
    ∃ guard more condition, .keyword .guard :: after = guard ++ .mark .openBrace :: more ∧
      Phrase.Guard guard condition
  block : ∀ guard condition, Phrase.Guard guard condition →
    language.Viable (guard ++ [.mark .openBrace])

variable {first : Language Value} {second : Language Value'} {front back : List Token}
  {value : Value}

/-- Of a guard and what goes on behind it, a front is unfinished or goes on behind the guard. -/
theorem front_of_guard {front rest guard more : List Token} {condition : Expr}
    (split : front ++ rest = guard ++ more) (holds : Phrase.Guard guard condition) :
    Phrase.Guard.Viable front ∨ ∃ token spill, front = guard ++ token :: spill ∧
      more = token :: spill ++ rest := by
  rcases append_compare split with ⟨item, spill, rfl, -⟩ | ⟨spill, rfl, same⟩
  · exact .inl ⟨item :: spill, condition, holds⟩
  · rcases spill with _ | ⟨token, spill⟩
    · rw [List.append_nil]
      exact .inl (viable_of_word holds)
    · exact .inr ⟨token, spill, rfl, same⟩

theorem Phrase.not_guard_within {word guard more : List Token} {token other : Token}
    {condition : Expr} (viable : Language.Viable Guard word)
    (unfinished : ∀ condition, ¬ Guard word condition)
    (same : word ++ [token] = guard ++ other :: more) (holds : Guard guard condition) : False := by
  rcases append_compare same with ⟨item, spill, rfl, same'⟩ | ⟨spill, rfl, -⟩
  · have lengths := congrArg List.length same'
    simp at lengths
  · rcases spill with _ | ⟨item, spill⟩
    · rw [List.append_nil] at unfinished
      exact unfinished condition holds
    · have parts : Language.Viable Guard (guard ++ [item] ++ spill) := by simpa using viable
      exact guard_ended guard condition item holds parts.of_append

theorem Clauses.braceless (clauses : Clauses first) (holds : first front value) :
    .mark .openBrace ∉ front := (clauses.within front value holds).not_mem (by decide)

theorem Clauses.viable (clauses : Clauses first) {spill : List Token}
    (viable : first.Viable (front ++ .keyword .guard :: spill)) : BehindPayload front ∧
      (Phrase.Guard.Viable (.keyword .guard :: spill) ∨ ∃ guard token more condition,
        .keyword .guard :: spill = guard ++ token :: more ∧ Phrase.Guard guard condition ∧
          token ≠ .mark .openBrace) := by
  obtain ⟨rest, value, holds⟩ := viable
  obtain ⟨behind, guard, more, condition, split, holds'⟩ :=
    clauses.whole _ _ holds front (spill ++ rest) (by simp)
  refine ⟨behind, (front_of_guard split holds').imp_right ?_⟩
  rintro ⟨token, more, same, -⟩
  refine ⟨guard, token, more, condition, same, holds', ?_⟩
  rintro rfl
  apply clauses.braceless holds
  rw [same]
  simp

theorem Blocks.viable (blocks : Blocks second) {spill : List Token}
    (viable : second.Viable (.keyword .guard :: spill)) :
    Phrase.Guard.Viable (.keyword .guard :: spill) ∨ ∃ guard more condition,
      .keyword .guard :: spill = guard ++ .mark .openBrace :: more ∧
        Phrase.Guard guard condition := by
  obtain ⟨rest, value, holds⟩ := viable
  obtain ⟨guard, more, condition, split, holds'⟩ := blocks.head _ _ holds
  apply (front_of_guard split holds').imp_right
  rintro ⟨token, spill, same, same'⟩
  obtain ⟨rfl, -⟩ := List.cons.inj same'
  exact ⟨guard, spill, condition, same, holds'⟩

theorem Blocks.not_guard (blocks : Blocks second) {spill : List Token} {condition : Expr}
    {value : Value'} (holds : second (.keyword .guard :: spill) value) :
    ¬ Phrase.Guard (.keyword .guard :: spill) condition := by
  intro whole
  obtain ⟨guard, more, condition', same, holds'⟩ := blocks.head _ _ holds
  have split : .keyword .guard :: spill ++ [] = guard ++ .mark .openBrace :: more := by
    rw [List.append_nil, same]
  exact nomatch (guard_ended.split_unique whole holds' split).2

/-- What goes on both as a clause and as a block is an unfinished guard. -/
theorem Clauses.guard_of_blocks (clauses : Clauses first) (blocks : Blocks second)
    (only : ∀ token, first.Viable (front ++ [token]) → second.Viable [token] →
      token = .keyword .guard) {token : Token} {spill : List Token}
    (viable : first.Viable (front ++ token :: spill)) (viable' : second.Viable (token :: spill)) :
    token = .keyword .guard ∧ BehindPayload front ∧ Phrase.Guard.Viable (token :: spill) := by
  have start : first.Viable (front ++ [token] ++ spill) := by simpa using viable
  have start' : second.Viable ([token] ++ spill) := viable'
  obtain rfl := only token start.of_append start'.of_append
  obtain ⟨behind, inGuard | ⟨guard, token, more, condition, same, holds, braceless⟩⟩ :=
    clauses.viable viable
  · exact ⟨rfl, behind, inGuard⟩
  · rcases blocks.viable viable' with inGuard | ⟨guard', more', condition', same', holds'⟩
    · exact ⟨rfl, behind, inGuard⟩
    · obtain ⟨rfl, same''⟩ := guard_ended.split_unique holds holds' (same.symm.trans same')
      exact absurd (List.cons.inj same'').1 braceless

/-- What goes on both behind a shorter word of clauses and as a block is the guard of a clause. -/
theorem Clauses.guard_of_longer (clauses : Clauses first) (blocks : Blocks second)
    (only : ∀ token, first.Viable (front ++ [token]) → second.Viable [token] →
      token = .keyword .guard) {token : Token} {spill : List Token}
    (holds : first (front ++ token :: spill) value) (viable : second.Viable (token :: spill)) :
    token = .keyword .guard ∧ BehindPayload front ∧
      ∃ condition, Phrase.Guard (token :: spill) condition := by
  obtain ⟨rfl, behind, inGuard⟩ := clauses.guard_of_blocks blocks only (viable_of_word holds) viable
  obtain ⟨-, guard, more, condition, same, holds'⟩ := clauses.whole _ _ holds front spill rfl
  refine ⟨rfl, behind, condition, ?_⟩
  rw [same] at inGuard ⊢
  rcases more with _ | ⟨token, more⟩
  · rwa [List.append_nil]
  · have parts : Phrase.Guard.Viable (guard ++ [token] ++ more) := by simpa using inGuard
    exact absurd parts.of_append (guard_ended guard condition token holds')

namespace Clauses

section Seam

variable (clauses : Clauses first) (blocks : Blocks second)
  (only : ∀ word value token, first word value → first.Viable (word ++ [token]) →
    second.Viable [token] → token = .keyword .guard)
  (longest : ∀ word rest value', front ++ back = word ++ rest → first word value' →
    word.length ≤ front.length ∨ Blocked word rest)

include clauses blocks only

/-- Behind a shorter word of clauses only a block can go on, and its brace is the token. -/
private theorem onward_of_shorter {left spill right rest : List Token} {item token : Token}
    {value value' : Value} (holds : first (left ++ item :: spill) value)
    (free : ¬ Blocked (left ++ item :: spill) (right ++ rest)) (holds' : first left value')
    (viable : second.Viable (item :: spill ++ right ++ [token])) :
    right = [] ∧ BehindGuard (left ++ item :: spill) ∧
      (token = .mark .openBrace ↔ rest.head? ≠ some (.mark .openBrace)) := by
  rw [List.append_assoc] at viable
  obtain ⟨rfl, behind, condition, inGuard⟩ :=
    clauses.guard_of_longer blocks (only _ _ · holds') holds viable.of_append
  have behind' := behind.guard inGuard
  rcases blocks.viable viable with unfinished | ⟨guard, more, condition', same, inGuard'⟩
  · exfalso
    obtain ⟨other, others, next⟩ := List.exists_cons_of_ne_nil
      (List.append_ne_nil_of_right_ne_nil right (List.cons_ne_nil token []))
    rw [next] at unfinished
    have parts : Phrase.Guard.Viable (.keyword .guard :: spill ++ [other] ++ others) := by
      simpa using unfinished
    exact guard_ended _ _ _ inGuard parts.of_append
  · have next : right ++ [token] = .mark .openBrace :: more :=
      (guard_ended.split_unique inGuard inGuard' same).2
    rcases right with _ | ⟨other, right⟩
    · obtain ⟨rfl, -⟩ := List.cons.inj next
      exact ⟨rfl, behind', fun _ braced => free ⟨behind', braced⟩, fun _ => rfl⟩
    · obtain ⟨rfl, -⟩ := List.cons.inj next
      exact absurd ⟨behind', rfl⟩ free

include longest

private theorem onward (holds : first front value) (free : ¬ Blocked front back)
    {word rest : List Token} {token : Token} (split : front ++ back = word ++ rest)
    (reached : front.length ≤ word.length) (viable : (first.both second).Viable (word ++ [token])) :
    first.Viable (word ++ [token]) ∨
      (∃ spill, word = front ++ spill ∧ second.Viable (spill ++ [token])) ∨
      BehindGuard word ∧ (token = .mark .openBrace ↔ rest.head? ≠ some (.mark .openBrace)) := by
  rcases viable.of_both_snoc with inFirst | ⟨left, right, value', rfl, holds', inSecond⟩
  · exact .inl inFirst
  have split' : left ++ (right ++ rest) = front ++ back := by rw [split, List.append_assoc]
  rcases append_compare split' with ⟨item, spill, rfl, same⟩ | ⟨spill, rfl, same⟩
  · obtain ⟨more, rfl, rfl⟩ : ∃ more, right = item :: spill ++ more ∧ back = more ++ rest := by
      rcases append_compare same with ⟨other, more, longer, -⟩ | ⟨more, shape, back⟩
      · have lengths := congrArg List.length longer
        simp only [List.length_append, List.length_cons] at lengths reached
        omega
      · exact ⟨more, shape, back⟩
    obtain ⟨rfl, odd⟩ := onward_of_shorter clauses blocks only holds free holds' inSecond
    rw [List.append_nil]
    exact .inr (.inr odd)
  · rcases spill with _ | ⟨item, spill⟩
    · exact .inr (.inl ⟨right, by simp, inSecond⟩)
    · have blocked := blocked_of_longer longest split'.symm holds'
      obtain rfl := blocked.eq_nil blocks.brace inSecond.of_append
      rw [List.append_nil]
      exact .inr (.inr (blocked.odd blocks.brace inSecond))

omit longest only in
private theorem clear (holds : first front value) {spill : List Token} (filled : spill ≠ [])
    (viable : second.Viable spill)
    (known : ¬ first.Viable (front ++ spill) ∨ ∃ value, second spill value)
    (behind : BehindGuard (front ++ spill)) : BehindGuard spill := by
  obtain ⟨token, spill, rfl⟩ := List.exists_cons_of_ne_nil filled
  have parts : second.Viable ([token] ++ spill) := viable
  rcases behind.of_append_cons (blocks.plain token parts.of_append) with
    inside | ⟨ends, condition, holds'⟩
  · exact inside
  · exfalso
    rcases known with stuck | ⟨value', word⟩
    · obtain ⟨value', longer⟩ := clauses.extend _ _ _ _ holds ends holds'
      exact stuck (viable_of_word longer)
    · obtain ⟨tail, same, -⟩ := Phrase.guard_cons holds'
      obtain ⟨rfl, rfl⟩ := List.cons.inj same
      exact blocks.not_guard word holds'

omit only longest in
private theorem viable_of_guard (holds : first front value) (behind : BehindPayload front)
    {spill : List Token} {token : Token} (viable : Phrase.Guard.Viable (spill ++ [token])) :
    first.Viable (front ++ spill ++ [token]) ∧ second.Viable (spill ++ [token]) := by
  obtain ⟨rest, condition, whole⟩ := viable
  obtain ⟨value', longer⟩ := clauses.extend _ _ _ _ holds behind whole
  have inFirst : first.Viable (front ++ spill ++ [token] ++ rest) := by
    simpa using viable_of_word longer
  exact ⟨inFirst.of_append, (blocks.block _ _ whole).of_append.of_append⟩

private theorem tie (holds : first front value) {spill rest : List Token}
    (split : back = spill ++ rest) (filled : spill ≠ []) (viable : first.Viable (front ++ spill))
    (viable' : second.Viable spill)
    (stuck : ∀ token after, rest = token :: after →
      ¬ first.Viable (front ++ spill ++ [token]) ∧ ¬ second.Viable (spill ++ [token])) :
    ¬ BehindGuard (front ++ spill) ∧
      ∀ token, first.Viable (front ++ spill ++ [token]) ↔ second.Viable (spill ++ [token]) := by
  obtain ⟨token, spill, rfl⟩ := List.exists_cons_of_ne_nil filled
  obtain ⟨rfl, behind, inGuard⟩ := clauses.guard_of_blocks blocks (only _ _ · holds) viable viable'
  have unfinished : ∀ condition, ¬ Phrase.Guard (.keyword .guard :: spill) condition := by
    intro condition whole
    obtain ⟨value', longer⟩ := clauses.extend _ _ _ _ holds behind whole
    have blocked := blocked_of_longer longest (by rw [split, List.append_assoc]) longer
    rcases rest with _ | ⟨token, after⟩
    · exact nomatch blocked.2
    · have braced : token = .mark .openBrace := by simpa using blocked.2
      subst braced
      exact (stuck _ after rfl).2 (blocks.block _ _ whole)
  refine ⟨fun ends => ?_, fun token => ⟨fun inFirst => ?_, fun inSecond => ?_⟩⟩
  · rcases ends.of_append_cons (by decide) with inside | ⟨-, condition, whole⟩
    · exact Phrase.not_behind_guard inGuard inside
    · exact unfinished condition whole
  · rw [List.append_assoc] at inFirst
    rcases (clauses.viable inFirst).2 with more | ⟨guard, other, more, condition, same, whole, -⟩
    · exact (viable_of_guard clauses blocks holds behind more).2
    · exact (Phrase.not_guard_within inGuard unfinished same whole).elim
  · rcases blocks.viable inSecond with more | ⟨guard, more, condition, same, whole⟩
    · exact (viable_of_guard clauses blocks holds behind more).1
    · exact (Phrase.not_guard_within inGuard unfinished same whole).elim

omit longest in
/-- No block begins inside clauses that were read as far as they go. -/
private theorem not_inside {left spill right rest : List Token} {item token : Token}
    {value value' : Value} {other : Value'} (holds : first (left ++ item :: spill) value)
    (free : ¬ Blocked (left ++ item :: spill) back)
    (same : token :: right ++ rest = item :: spill ++ back)
    (inFirst : first left value') (inSecond : second (token :: right) other) : False := by
  obtain ⟨rfl, same'⟩ := List.cons.inj same
  rcases append_compare same' with ⟨next, more, rfl, -⟩ | ⟨more, rfl, rfl⟩
  · have start : first.Viable (left ++ [token] ++ (right ++ next :: more)) := by
      simpa using viable_of_word holds
    have start' : second.Viable ([token] ++ right) := viable_of_word inSecond
    obtain rfl := only left value' token inFirst start.of_append start'.of_append
    obtain ⟨guard, after, condition, same, -⟩ := blocks.head _ _ inSecond
    have among : .mark .openBrace ∈ .keyword .guard :: right := by simp [same]
    have member : .mark .openBrace ∈ right := by simpa using among
    exact clauses.braceless holds (by simp [member])
  · have viable : second.Viable (token :: spill ++ more) := viable_of_word inSecond
    obtain ⟨rfl, behind, condition, inGuard⟩ :=
      clauses.guard_of_longer blocks (only _ _ · inFirst) holds viable.of_append
    obtain ⟨guard, more', condition', same, inGuard'⟩ := blocks.head _ _ inSecond
    obtain ⟨rfl, rfl⟩ := guard_ended.split_unique inGuard inGuard' same
    exact free ⟨behind.guard inGuard, rfl⟩

private theorem word (holds : first front value) (free : ¬ Blocked front back)
    {left right rest : List Token} {value' : Value} {other : Value'}
    (split : front ++ back = left ++ right ++ rest) (inFirst : first left value')
    (inSecond : second right other) :
    left = front ∨ right = [] ∧ (left.length < front.length ∨
      Blocked left rest ∧ ∀ spill value', left = front ++ spill → ¬ second spill value') := by
  rw [List.append_assoc] at split
  rcases append_compare split.symm with ⟨item, spill, rfl, same⟩ | ⟨spill, rfl, same⟩
  · rcases right with _ | ⟨token, right⟩
    · refine .inr ⟨rfl, .inl ?_⟩
      simp only [List.length_append, List.length_cons]
      omega
    · exact (not_inside clauses blocks only holds free same inFirst inSecond).elim
  · rcases spill with _ | ⟨item, spill⟩
    · exact .inl (List.append_nil _)
    · have blocked := blocked_of_longer longest split inFirst
      obtain rfl := blocked.eq_nil blocks.brace (viable_of_word inSecond)
      refine .inr ⟨rfl, .inr ⟨blocked, ?_⟩⟩
      intro spill' value'' same inSecond'
      rw [← List.append_cancel_left same] at inSecond'
      obtain ⟨rfl, -, condition, inGuard⟩ :=
        clauses.guard_of_longer blocks (only _ _ · holds) inFirst (viable_of_word inSecond')
      exact blocks.not_guard inSecond' inGuard

theorem seam (holds : first front value) (free : ¬ Blocked front back) :
    Seam first second front back where
  onward _ _ _ := onward clauses blocks only longest holds free
  clear _ _ _ := clear clauses blocks holds
  tie _ _ := tie clauses blocks only longest holds
  apart token token' _ viable' classed := by
    apply blocks.plain token' viable'
    rw [classed.2]
    decide
  brace _ := blocks.brace
  word _ _ _ _ _ := word clauses blocks only longest holds free

end Seam

end Clauses

/-- Reading symbols behind clauses. -/
theorem Reads.both_of_clauses {rule : Rule Value} {rule' : Rule Value'} {tokens : List Token}
    (clauses : Clauses first) (blocks : Blocks second) (inhabited : second.Inhabited)
    (only : ∀ word value token, first word value → first.Viable (word ++ [token]) →
      second.Viable [token] → token = .keyword .guard)
    (reads : Reads first tokens (rule tokens))
    (reads' : ∀ front back value, tokens = front ++ back → first front value →
      Reads second back (rule' back)) :
    Reads (first.both second) tokens ((rule.both rule') tokens) := by
  apply reads.both inhabited reads'
  rintro front back value rfl holds free longest
  exact clauses.seam blocks only longest holds free

namespace Clauses

theorem congr {other : Language Value} (clauses : Clauses first)
    (same : ∀ word value, other word value ↔ first word value) : Clauses other := by
  rwa [Language.same same]

theorem map {change : Value → Value'} (clauses : Clauses first) : Clauses (first.map change) where
  whole := by
    rintro word - ⟨value, holds, rfl⟩
    exact clauses.whole word value holds
  within := by
    rintro word - ⟨value, holds, rfl⟩
    exact clauses.within word value holds
  extend := by
    rintro word - guard condition ⟨value, holds, rfl⟩ behind inGuard
    obtain ⟨value', longer⟩ := clauses.extend word value guard condition holds behind inGuard
    exact ⟨change value', value', longer, rfl⟩
  stop := by
    rintro front back - ⟨value, holds, rfl⟩ behind
    obtain ⟨value', shorter⟩ := clauses.stop front back value holds behind
    exact ⟨change value', value', shorter, rfl⟩

theorem either {other : Language Value} (clauses : Clauses first) (clauses' : Clauses other) :
    Clauses (first.either other) where
  whole := by
    rintro word value (holds | holds)
    · exact clauses.whole word value holds
    · exact clauses'.whole word value holds
  within := by
    rintro word value (holds | holds)
    · exact clauses.within word value holds
    · exact clauses'.within word value holds
  extend := by
    rintro word value guard condition (holds | holds) behind inGuard
    · obtain ⟨value', longer⟩ := clauses.extend word value guard condition holds behind inGuard
      exact ⟨value', .inl longer⟩
    · obtain ⟨value', longer⟩ := clauses'.extend word value guard condition holds behind inGuard
      exact ⟨value', .inr longer⟩
  stop := by
    rintro front back value (holds | holds) behind
    · obtain ⟨value', shorter⟩ := clauses.stop front back value holds behind
      exact ⟨value', .inl shorter⟩
    · obtain ⟨value', shorter⟩ := clauses'.stop front back value holds behind
      exact ⟨value', .inr shorter⟩

theorem maybe (clauses : Clauses first) : Clauses (Maybe first) where
  whole := by
    intro word value holds
    cases holds with
    | none => exact .of_plain List.not_mem_nil
    | some holds => exact clauses.whole word _ holds
  within := by
    intro word value holds
    cases holds with
    | none => exact nofun
    | some holds => exact clauses.within word _ holds
  extend := by
    intro word value guard condition holds behind inGuard
    cases holds with
    | none => exact absurd behind not_behind_payload_nil
    | some holds =>
        obtain ⟨value', longer⟩ := clauses.extend word _ guard condition holds behind inGuard
        exact ⟨some value', .some longer⟩
  stop := by
    intro front back value holds behind
    generalize whole : front ++ back = word at holds
    cases holds with
    | none =>
        rw [(List.append_eq_nil_iff.1 whole).1] at behind
        exact absurd behind not_behind_guard_nil
    | some holds =>
        rw [← whole] at holds
        obtain ⟨value', shorter⟩ := clauses.stop front back _ holds behind
        exact ⟨some value', .some shorter⟩

theorem both (clauses : Clauses first) (clauses' : Clauses second) {other : Value'}
    (nothing : second [] other)
    (plain : ∀ token, second.Viable [token] → token.kind ∉ Phrase.payloadKinds) :
    Clauses (first.both second) where
  whole := by
    rintro word pair ⟨front, back, rfl, holds, holds'⟩
    exact (clauses.whole front _ holds).append (clauses'.whole back _ holds')
  within := by
    rintro word pair ⟨front, back, rfl, holds, holds'⟩
    exact (clauses.within front _ holds).append (clauses'.within back _ holds')
  extend := by
    rintro word ⟨value, value'⟩ guard condition ⟨front, back, rfl, holds, holds'⟩ behind inGuard
    rcases back with _ | ⟨token, back⟩
    · rw [List.append_nil] at behind ⊢
      obtain ⟨value, longer⟩ := clauses.extend front _ guard condition holds behind inGuard
      exact ⟨(value, value'), front ++ guard, [], (List.append_nil _).symm, longer, holds'⟩
    · have parts : second.Viable ([token] ++ back) := viable_of_word holds'
      have behind' := behind.of_append_cons (plain token parts.of_append)
      obtain ⟨value', longer⟩ := clauses'.extend _ _ guard condition holds' behind' inGuard
      exact ⟨(value, value'), front, _, List.append_assoc _ _ _, holds, longer⟩
  stop := by
    rintro word rest ⟨value, value'⟩ ⟨front, back, split, holds, holds'⟩ behind
    rcases append_compare split with ⟨item, spill, rfl, -⟩ | ⟨spill, rfl, rfl⟩
    · obtain ⟨value, shorter⟩ := clauses.stop word _ _ holds behind
      exact ⟨(value, other), word, [], (List.append_nil _).symm, shorter, nothing⟩
    · rcases spill with _ | ⟨token, spill⟩
      · exact ⟨(value, other), front, [], rfl, holds, nothing⟩
      · have parts : second.Viable ([token] ++ (spill ++ rest)) := viable_of_word holds'
        rcases behind.of_append_cons (plain token parts.of_append) with
          inSecond | ⟨ends, condition, inGuard⟩
        · obtain ⟨value', shorter⟩ := clauses'.stop _ rest _ holds' inSecond
          exact ⟨(value, value'), front, _, rfl, holds, shorter⟩
        · obtain ⟨value, longer⟩ := clauses.extend front _ _ condition holds ends inGuard
          exact ⟨(value, other), _, [], (List.append_nil _).symm, longer, nothing⟩

theorem star_extend (clauses : Clauses first)
    (plain : ∀ token, Language.Viable (Star first) [token] → token.kind ∉ Phrase.payloadKinds)
    {word guard : List Token} {values : List Value} {condition : Expr}
    (holds : Star first word values) (behind : BehindPayload word)
    (inGuard : Phrase.Guard guard condition) : ∃ values', Star first (word ++ guard) values' := by
  induction holds with
  | nil => exact absurd behind not_behind_payload_nil
  | @cons word words value values holds rest induction =>
      rcases words with _ | ⟨token, words⟩
      · rw [List.append_nil] at behind ⊢
        obtain ⟨value', longer⟩ := clauses.extend word _ guard condition holds behind inGuard
        exact ⟨[value'], star_one longer⟩
      · have parts : Language.Viable (Star first) ([token] ++ words) := viable_of_word rest
        obtain ⟨values', longer⟩ :=
          induction (behind.of_append_cons (plain token parts.of_append))
        refine ⟨value :: values', ?_⟩
        rw [List.append_assoc]
        exact .cons holds longer

theorem star_stop (clauses : Clauses first)
    (plain : ∀ token, Language.Viable (Star first) [token] → token.kind ∉ Phrase.payloadKinds)
    {front back : List Token} {values : List Value} (holds : Star first (front ++ back) values)
    (behind : BehindGuard front) : ∃ values', Star first front values' := by
  generalize whole : front ++ back = word at holds
  induction holds generalizing front with
  | nil =>
      rw [(List.append_eq_nil_iff.1 whole).1] at behind
      exact absurd behind not_behind_guard_nil
  | @cons word words value values holds rest induction =>
      rcases append_compare whole with ⟨item, spill, rfl, -⟩ | ⟨spill, rfl, rfl⟩
      · obtain ⟨value', shorter⟩ := clauses.stop front _ _ holds behind
        exact ⟨[value'], star_one shorter⟩
      · rcases spill with _ | ⟨token, spill⟩
        · rw [List.append_nil]
          exact ⟨[value], star_one holds⟩
        · have parts : Language.Viable (Star first) ([token] ++ (spill ++ back)) :=
            viable_of_word rest
          rcases behind.of_append_cons (plain token parts.of_append) with
            inRest | ⟨ends, condition, inGuard⟩
          · obtain ⟨values', shorter⟩ := induction inRest rfl
            exact ⟨value :: values', .cons holds shorter⟩
          · obtain ⟨value', longer⟩ := clauses.extend word _ _ condition holds ends inGuard
            exact ⟨[value'], star_one longer⟩

theorem star (clauses : Clauses first)
    (plain : ∀ token, Language.Viable (Star first) [token] → token.kind ∉ Phrase.payloadKinds) :
    Clauses (Star first) where
  whole := by
    intro word values holds
    induction holds with
    | nil => exact .of_plain List.not_mem_nil
    | cons holds rest induction => exact (clauses.whole _ _ holds).append induction
  within := by
    intro word values holds
    induction holds with
    | nil => exact nofun
    | cons holds rest induction => exact (clauses.within _ _ holds).append induction
  extend := fun _ _ _ _ holds => clauses.star_extend plain holds
  stop := fun _ _ _ holds => clauses.star_stop plain holds

end Clauses

theorem Phrase.guard_within {guard : List Token} {condition : Expr}
    (holds : Guard guard condition) : Within clauseKinds guard := by
  obtain ⟨tail, rfl, bracketed⟩ := guard_cons holds
  exact .cons (by decide) ((bracketed_within bracketed).mono (by decide))

theorem GuardsWhole.of_payload {name : Keyword} {payload guard : List Token} {condition : Expr}
    (wellFormed : Phrase.Payload name payload) (inGuard : Phrase.Guard guard condition) :
    GuardsWhole (.keyword name :: payload ++ guard) := by
  intro before after split
  obtain ⟨tail, rfl, bracketed⟩ := Phrase.guard_cons inGuard
  obtain ⟨rfl, rfl⟩ :=
    only_occurrence split (Phrase.payload_plain wellFormed) (Phrase.bracketed_plain bracketed)
  exact ⟨⟨[], name, payload, wellFormed, rfl⟩, _, [], _, (List.append_nil _).symm, inGuard⟩

/-- Of a payload and its guard, a front that ends behind a guard has all of the payload. -/
theorem guard_of_front {name : Keyword} {payload guard front back : List Token} {condition : Expr}
    (wellFormed : Phrase.Payload name payload) (inCondition : Condition guard condition)
    (split : front ++ back = .keyword name :: payload ++ guard) (behind : BehindGuard front) :
    ∃ guard' condition', front = .keyword name :: payload ++ guard' ∧
      Phrase.Guard guard' condition' := by
  have plain := Phrase.payload_plain wellFormed
  have member := behind.guard_mem
  rcases append_compare split with ⟨item, spill, same, -⟩ | ⟨spill, rfl, rfl⟩
  · rw [same] at plain
    exact absurd (List.mem_append_left _ member) plain
  rcases condition_iff.1 inCondition with ⟨none, -⟩ | inGuard
  · rw [(List.append_eq_nil_iff.1 none).1, List.append_nil] at member
    exact absurd member plain
  obtain ⟨tail, same, bracketed⟩ := Phrase.guard_cons inGuard
  rcases spill with _ | ⟨token, spill⟩
  · rw [List.append_nil] at member
    exact absurd member plain
  · obtain ⟨rfl, rfl⟩ := List.cons.inj same
    have last : .keyword .guard ∉ spill := fun among =>
      Phrase.bracketed_plain bracketed (List.mem_append_left back among)
    obtain ⟨-, condition', whole⟩ := (behind_guard_iff _ last).1 behind
    exact ⟨_, condition', rfl, whole⟩

theorem clause_clauses {name : Keyword} {payload : Language Value}
    (payloads : ∀ word value, payload word value → Phrase.Payload name word) :
    Clauses (Clause name payload) where
  whole := by
    intro word value holds
    obtain ⟨front, guard, rfl, inPayload, inCondition⟩ := clause_iff.1 holds
    have wellFormed := payloads front _ inPayload
    rcases condition_iff.1 inCondition with ⟨rfl, -⟩ | inGuard
    · rw [List.append_nil]
      exact .of_plain (Phrase.payload_plain wellFormed)
    · exact .of_payload wellFormed inGuard
  within := by
    intro word value holds
    obtain ⟨front, guard, rfl, inPayload, inCondition⟩ := clause_iff.1 holds
    have wellFormed := payloads front _ inPayload
    have head := (by decide : ∀ kind ∈ Phrase.nameKinds, kind ∈ Phrase.clauseKinds) _
      (Phrase.payload_name wellFormed)
    have behind : Within Phrase.clauseKinds front :=
      (Phrase.payload_within wellFormed).mono (by decide)
    apply (Within.cons head behind).append
    rcases condition_iff.1 inCondition with ⟨rfl, -⟩ | inGuard
    · exact nofun
    · exact Phrase.guard_within inGuard
  extend := by
    intro word value guard condition holds behind inGuard
    obtain ⟨front, other, rfl, inPayload, inCondition⟩ := clause_iff.1 holds
    rcases condition_iff.1 inCondition with ⟨rfl, -⟩ | inOther
    · refine ⟨⟨value.payload, condition⟩, clause_iff.2 ⟨front, guard, ?_, inPayload, ?_⟩⟩
      · rw [List.append_nil]
      · exact condition_iff.2 (.inr inGuard)
    · obtain ⟨tail, rfl, bracketed⟩ := Phrase.guard_cons inOther
      refine absurd behind (not_behind_payload _ (by decide) (by decide) ?_)
      exact (Phrase.bracketed_within bracketed).mono (List.subset_cons_self _ _)
  stop := by
    intro front back value holds behind
    obtain ⟨payload', guard, split, inPayload, inCondition⟩ := clause_iff.1 holds
    obtain ⟨guard', condition, rfl, inGuard⟩ :=
      guard_of_front (payloads payload' _ inPayload) inCondition split behind
    exact ⟨⟨value.payload, condition⟩, clause_iff.2
      ⟨payload', guard', rfl, inPayload, condition_iff.2 (.inr inGuard)⟩⟩

theorem dependency_clauses : Clauses Phrase.Dependency :=
  (clause_clauses depends_payload).map.congr fun _ _ => Phrase.dependency_iff

theorem property_clauses : Clauses Phrase.PropertyClause := by
  refine Clauses.congr ?_ fun _ _ => Phrase.property_iff
  apply (clause_clauses prompt_payload).map.either
  apply dependency_clauses.map.either
  apply (clause_clauses default_payload).map.either
  apply (clause_clauses range_payload).map.either
  exact (clause_clauses select_payload).map.either (clause_clauses env_payload).map

theorem choice_clauses : Clauses Phrase.ChoiceClause := by
  refine Clauses.congr ?_ fun _ _ => Phrase.choice_clause_iff
  apply (clause_clauses prompt_payload).map.either
  exact (clause_clauses default_payload).map.either dependency_clauses.map

theorem inherited_clauses : Clauses Phrase.Inherited where
  whole word value holds := .of_plain ((inherited_reader 0).shaped.guardless rfl word value holds)
  within := by
    intro word value holds
    cases holds with
    | intro bracketed =>
        exact .cons (by decide) ((Phrase.bracketed_within bracketed).mono (by decide))
  extend := by
    intro word value guard condition holds behind
    cases holds with
    | intro bracketed =>
        refine absurd behind (not_behind_payload [] (by decide) (by decide) ?_)
        exact (Phrase.bracketed_within bracketed).mono (List.subset_cons_self _ _)
  stop := by
    intro front back value holds behind
    have plain := (inherited_reader 0).shaped.guardless rfl _ value holds
    exact absurd (List.mem_append_left back behind.guard_mem) plain

end KernelMenu.Grammar

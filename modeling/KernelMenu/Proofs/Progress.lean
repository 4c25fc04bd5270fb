import KernelMenu.Proofs.Plan

/-!
Reading goes on. How many tokens a rule takes at least can be counted on its plan, and so can be
checked that each turn of a repetition takes a token and that calls start behind one. A watched run
of such a plan is never stopped.
-/

namespace KernelMenu.Grammar

variable {Value Value' : Type}

namespace Rule

/-- Whenever the rule succeeds, it takes so many tokens, and no more than there are. -/
def TakesAtLeast (least : Nat) (rule : Rule Value) : Prop :=
  ∀ tokens value used missed, rule tokens = .ok value used missed →
    least ≤ used ∧ used ≤ tokens.length

variable {least least' : Nat} {rule second : Rule Value} {other : Rule Value'}

namespace TakesAtLeast

theorem mono (takes : rule.TakesAtLeast least) (fewer : least' ≤ least) :
    rule.TakesAtLeast least' := by
  intro tokens value used missed found
  have bounds := takes tokens value used missed found
  exact ⟨Nat.le_trans fewer bounds.1, bounds.2⟩

theorem exactly (wanted : Token) : (Rule.exactly wanted).TakesAtLeast 1 := by
  rintro (_ | ⟨token, tokens⟩) value used missed found
  · exact nomatch found
  · rw [Rule.exactly] at found
    split at found <;> cases found
    simp

theorem classified (tokens : TokenClass) (meaning : Token → Option Value) :
    (Rule.classified tokens meaning).TakesAtLeast 1 := by
  rintro (_ | ⟨token, list⟩) value used missed found
  · exact nomatch found
  · rw [Rule.classified] at found
    split at found <;> cases found
    simp

theorem other_than (avoided : Token) : (Rule.otherThan avoided).TakesAtLeast 1 := by
  rintro (_ | ⟨token, tokens⟩) value used missed found
  · exact nomatch found
  · rw [Rule.otherThan] at found
    split at found <;> cases found
    simp

theorem end_of_input : Rule.endOfInput.TakesAtLeast 0 := by
  rintro (_ | ⟨token, tokens⟩) value used missed found <;> cases found
  simp

theorem map (takes : rule.TakesAtLeast least) (change : Value → Value') :
    (rule.map change).TakesAtLeast least := by
  intro tokens value used missed found
  rw [Rule.map] at found
  split at found <;> cases found
  case h_1 first => exact takes tokens _ _ _ first

theorem both (takes : rule.TakesAtLeast least) (takes' : other.TakesAtLeast least') :
    (rule.both other).TakesAtLeast (least + least') := by
  intro tokens value used missed found
  rw [Rule.both] at found
  split at found
  · cases found
  case h_2 first =>
    split at found <;> cases found
    case h_1 rest =>
      have bounds := takes tokens _ _ _ first
      have bounds' := takes' _ _ _ _ rest
      rw [List.length_drop] at bounds'
      omega

/-- What succeeds as one of two rules does. -/
theorem either {whole : Rule Value} (takes : rule.TakesAtLeast least)
    (takes' : second.TakesAtLeast least')
    (one : ∀ tokens value used missed, whole tokens = .ok value used missed →
      (∃ missed', rule tokens = .ok value used missed') ∨
        ∃ missed', second tokens = .ok value used missed') :
    whole.TakesAtLeast (min least least') := by
  intro tokens value used missed found
  rcases one tokens value used missed found with ⟨missed', first⟩ | ⟨missed', last⟩
  · have bounds := takes tokens value used missed' first
    omega
  · have bounds := takes' tokens value used missed' last
    omega

theorem or_else (takes : rule.TakesAtLeast least) (takes' : second.TakesAtLeast least') :
    (rule.orElse second).TakesAtLeast (min least least') := by
  refine takes.either takes' fun tokens value used missed found => ?_
  rw [Rule.orElse] at found
  split at found
  case h_1 first => exact .inl ⟨missed, by rw [first, ← found]⟩
  case h_2 =>
    split at found <;> cases found
    case h_1 last => exact .inr ⟨_, last⟩

theorem first_of (takes : rule.TakesAtLeast least) (takes' : second.TakesAtLeast least') :
    (Rule.firstOf rule [second]).TakesAtLeast (min least least') := by
  refine takes.either takes' fun tokens value used missed found => ?_
  simp only [Rule.firstOf] at found
  split at found
  case h_1 first => exact .inl ⟨missed, by rw [first, ← found]⟩
  case h_2 =>
    split at found <;> cases found
    case h_1 last => exact .inr ⟨_, last⟩

theorem optional (takes : rule.TakesAtLeast least) : rule.optional.TakesAtLeast 0 := by
  intro tokens value used missed found
  rw [Rule.optional] at found
  split at found <;> cases found
  case h_1 first => exact ⟨Nat.zero_le _, (takes tokens _ _ _ first).2⟩
  case h_2 => simp

theorem ahead (rule : Rule Value) : rule.ahead.TakesAtLeast 0 := by
  intro tokens value used missed found
  rw [Rule.ahead] at found
  split at found <;> cases found
  simp

theorem many (rule : Rule Value) : rule.many.TakesAtLeast 0 := by
  intro tokens
  induction length : tokens.length using Nat.strongRecOn generalizing tokens with
  | ind count induction =>
      intro value used missed found
      rw [Rule.many] at found
      split at found
      · cases found
        simp
      · split at found
        case isTrue fits =>
          split at found <;> cases found
          case h_1 rest =>
            have bounds := induction _ (by rw [List.length_drop]; omega) _ rfl _ _ _ rest
            rw [List.length_drop] at bounds
            omega
        case isFalse =>
          cases found
          simp

theorem recursive {body : Rule Value → Rule Value}
    (step : ∀ inner : Rule Value, inner.TakesAtLeast 0 → (body inner).TakesAtLeast 0) :
    (Rule.recursive body).TakesAtLeast 0 := by
  intro tokens
  induction length : tokens.length using Nat.strongRecOn generalizing tokens with
  | ind count induction =>
      subst length
      rw [Rule.recursive]
      refine step _ ?_ tokens
      intro rest value used missed found
      dsimp only at found
      split at found
      case isTrue shorter => exact induction _ shorter rest rfl _ _ _ found
      case isFalse => cases found

end TakesAtLeast

end Rule

namespace Plan

variable {rules : (callee : Callee) → Rule callee.Value}
  {calls : (callee : Callee) → List Token → Watched (Outcome callee.Value)} {start : Nat}

/-- How many tokens are taken at least, as far as it shows without a look at what is called. -/
def least {Value : Type} : Plan Value → Nat
  | exactly _ | classified _ _ | otherThan _ => 1
  | endOfInput | call _ | optional _ | ahead _ | many _ => 0
  | map _ plan => plan.least
  | both first second => first.least + second.least
  | orElse first second | firstOf first second => min first.least second.least

/-- Each turn of a repetition takes a token, and each call starts behind one. So many were taken
before. -/
def Advances {Value : Type} (taken : Nat) : Plan Value → Prop
  | exactly _ | classified _ _ | otherThan _ | endOfInput => True
  | call _ => 0 < taken
  | map _ plan | optional plan | ahead plan => plan.Advances taken
  | both first second => first.Advances taken ∧ second.Advances (taken + first.least)
  | orElse first second | firstOf first second => first.Advances taken ∧ second.Advances taken
  | many plan => 0 < plan.least ∧ plan.Advances taken

instance decideAdvances {Value : Type} (taken : Nat) :
    (plan : Plan Value) → Decidable (plan.Advances taken)
  | exactly _ | classified _ _ | otherThan _ | endOfInput => .isTrue trivial
  | call _ => inferInstanceAs (Decidable (0 < taken))
  | map _ plan | optional plan | ahead plan => decideAdvances taken plan
  | both first second =>
      have := decideAdvances taken first
      have := decideAdvances (taken + first.least) second
      inferInstanceAs (Decidable (_ ∧ _))
  | orElse first second | firstOf first second =>
      have := decideAdvances taken first
      have := decideAdvances taken second
      inferInstanceAs (Decidable (_ ∧ _))
  | many plan =>
      have := decideAdvances taken plan
      inferInstanceAs (Decidable (_ ∧ _))

theorem takes_at_least (called : ∀ callee, (rules callee).TakesAtLeast 0) (plan : Plan Value) :
    (plan.rule rules).TakesAtLeast plan.least := by
  induction plan with
  | exactly wanted => exact .exactly wanted
  | classified tokens meaning => exact .classified tokens meaning
  | otherThan avoided => exact .other_than avoided
  | endOfInput => exact .end_of_input
  | call callee => exact called callee
  | map change plan induction => exact induction.map change
  | both first second induction induction' => exact induction.both induction'
  | orElse first second induction induction' => exact induction.or_else induction'
  | firstOf first second induction induction' => exact induction.first_of induction'
  | optional plan induction => exact induction.optional
  | ahead plan => exact .ahead _
  | many plan => exact .many _

theorem turns_eq {rule : Rule Value} {turn : List Token → Watched (Outcome Value)}
    (takes : rule.TakesAtLeast 1) (tokens : List Token)
    (same : ∀ rest : List Token, rest.length ≤ tokens.length → turn rest = .ok (rule rest)) :
    turns turn tokens = .ok (rule.many tokens) := by
  induction length : tokens.length using Nat.strongRecOn generalizing tokens with
  | ind count induction =>
      rw [turns, same tokens (Nat.le_refl _), Rule.many]
      cases first : rule tokens with
      | fail failure => rfl
      | ok value used missed =>
          have bounds := takes tokens value used missed first
          have shorter : (tokens.drop used).length < tokens.length := by
            rw [List.length_drop]
            omega
          have others := induction _ (length ▸ shorter) (tokens.drop used)
            (fun rest fits => same rest (by omega)) rfl
          simp only [bind, Except.bind, bounds.2, show 0 < used from bounds.1, and_self, dif_pos,
            others]
          cases rule.many (tokens.drop used) <;> rfl

/-- A watched run is not stopped if the plan advances and calls from later places are not. -/
theorem run_eq (called : ∀ callee, (rules callee).TakesAtLeast 0)
    (same : ∀ callee (rest : List Token), rest.length < start →
      calls callee rest = .ok (rules callee rest))
    (plan : Plan Value) {taken : Nat} (advances : plan.Advances taken) (tokens : List Token)
    (behind : tokens.length + taken ≤ start) :
    plan.run calls tokens = .ok (plan.rule rules tokens) := by
  induction plan generalizing taken tokens with
  | exactly | classified | otherThan | endOfInput => rfl
  | call callee =>
      exact same callee tokens
        (Nat.lt_of_lt_of_le (Nat.lt_add_of_pos_right advances) behind)
  | map change plan induction =>
      rw [run, induction advances tokens behind]
      rfl
  | both first second induction induction' =>
      rw [run, induction advances.1 tokens behind]
      cases found : first.rule rules tokens with
      | fail failure => simp only [bind, Except.bind, rule, Rule.both, found]
      | ok value used missed =>
          have bounds := takes_at_least called first tokens value used missed found
          have later : (tokens.drop used).length + (taken + first.least) ≤ start := by
            rw [List.length_drop]
            omega
          simp only [bind, Except.bind, induction' advances.2 (tokens.drop used) later, rule,
            Rule.both, found]
  | orElse first second induction induction' =>
      rw [run, induction advances.1 tokens behind]
      cases found : first.rule rules tokens with
      | ok => simp only [bind, Except.bind, rule, Rule.orElse, found]
      | fail =>
          simp only [bind, Except.bind, induction' advances.2 tokens behind, rule, Rule.orElse,
            found]
  | firstOf first second induction induction' =>
      rw [run, induction advances.1 tokens behind]
      cases found : first.rule rules tokens with
      | ok => simp only [bind, Except.bind, rule, Rule.firstOf, found]
      | fail =>
          simp only [bind, Except.bind, induction' advances.2 tokens behind, rule, Rule.firstOf,
            found]
  | optional plan induction =>
      rw [run, induction advances tokens behind]
      rfl
  | ahead plan induction =>
      rw [run, induction advances tokens behind]
      rfl
  | many plan induction =>
      rw [run]
      apply turns_eq ((takes_at_least called plan).mono advances.1)
      exact fun rest fits => induction advances.2 rest (by omega)

end Plan

section Called

theorem rule_disjunction (inner : Rule (List Draft)) (expr : Rule Expr) :
    Plan.disjunction.rule (Callee.choose inner expr) = disjunction expr :=
  @Planned.rule_eq (Callee.choose inner expr) _ (disjunction expr) _

theorem rule_sequence (inner : Rule (List Draft)) :
    Plan.sequence.rule (Callee.choose inner expression) = sequence inner :=
  @Planned.rule_eq (Callee.choose inner expression) _ (sequence inner) _

theorem choose_takes {inner : Rule (List Draft)} {expr : Rule Expr} (takes : inner.TakesAtLeast 0)
    (takes' : expr.TakesAtLeast 0) (callee : Callee) :
    (Callee.choose inner expr callee).TakesAtLeast 0 := by
  cases callee with
  | symbols => exact takes
  | expression => exact takes'

theorem expression_takes : expression.TakesAtLeast 0 := by
  refine .recursive fun inner takes => ?_
  have none : Rule.TakesAtLeast 0 fun _ => (.fail ⟨0, []⟩ : Outcome (List Draft)) := nofun
  have counted := Plan.takes_at_least (choose_takes none takes) .disjunction
  rw [rule_disjunction] at counted
  exact counted.mono (Nat.zero_le _)

theorem symbols_takes : symbols.TakesAtLeast 0 := by
  refine .recursive fun inner takes => ?_
  have counted := Plan.takes_at_least (choose_takes takes expression_takes) .sequence
  rw [rule_sequence] at counted
  exact counted.mono (Nat.zero_le _)

/-- A rule takes a token if this shows in its plan. -/
theorem takes_one (rule : Rule Value) [planned : Planned (Callee.choose symbols expression) rule]
    (filled : 0 < planned.plan.least) : rule.TakesAtLeast 1 := by
  rw [← planned.rule_eq]
  exact (Plan.takes_at_least (choose_takes symbols_takes expression_takes) planned.plan).mono filled

/-- A rule that is defined through itself is its plan, with rules that are the called ones on fewer
tokens. -/
theorem callee_rule_eq (callee : Callee) (tokens : List Token) :
    ∃ rules : (next : Callee) → Rule next.Value, (∀ next, (rules next).TakesAtLeast 0) ∧
      (∀ next (rest : List Token), rest.length < tokens.length → rules next rest = next.rule rest) ∧
      callee.rule tokens = callee.plan.rule rules tokens := by
  have shorter : ∀ {Value : Type} {rule : Rule Value}, rule.TakesAtLeast 0 →
      Rule.TakesAtLeast 0 fun rest =>
        if _ : rest.length < tokens.length then rule rest else .fail ⟨0, []⟩ := by
    intro Value rule takes rest value used missed found
    dsimp only at found
    split at found
    case isTrue => exact takes rest value used missed found
    case isFalse => cases found
  cases callee with
  | symbols =>
      refine ⟨Callee.choose _ expression, choose_takes (shorter symbols_takes) expression_takes,
        ?_, ?_⟩
      · intro next rest fewer
        cases next with
        | symbols => exact dif_pos fewer
        | expression => rfl
      · rw [Callee.rule, symbols, Rule.recursive, Callee.plan, rule_sequence]
  | expression =>
      refine ⟨Callee.choose symbols _, choose_takes symbols_takes (shorter expression_takes),
        ?_, ?_⟩
      · intro next rest fewer
        cases next with
        | symbols => rfl
        | expression => exact dif_pos fewer
      · rw [Callee.rule, expression, Rule.recursive, Callee.plan, rule_disjunction]

theorem callee_advances (callee : Callee) : callee.plan.Advances 0 := by
  cases callee <;> decide

/-- Calls are open one inside the other no more often than there are tokens, and once more. -/
theorem run_within_eq (callee : Callee) {depth : Nat} {tokens : List Token}
    (enough : tokens.length < depth) :
    callee.runWithin depth tokens = .ok (callee.rule tokens) := by
  induction depth generalizing callee tokens with
  | zero => exact absurd enough (Nat.not_lt_zero _)
  | succ depth induction =>
      obtain ⟨rules, takes, same, whole⟩ := callee_rule_eq callee tokens
      rw [Callee.runWithin, whole]
      refine Plan.run_eq takes ?_ callee.plan (callee_advances callee) tokens (Nat.le_refl _)
      intro next rest fewer
      have later : rest.length < tokens.length := fewer
      rw [if_pos later, same next rest later]
      exact induction next (by omega)

/-- The plans are those of the grammar. Every rule that is repeated takes a token whenever it
succeeds, and the watched run of a source is not stopped: no turn takes nothing, no call starts
where its caller did, and no more calls are open at once than there are tokens, and one. -/
theorem source_never_stalls :
    (∀ inner, Plan.sequence.rule (Callee.choose inner expression) = sequence inner) ∧
    (∀ inner, Plan.disjunction.rule (Callee.choose symbols inner) = disjunction inner) ∧
    (property.TakesAtLeast 1 ∧ choiceProperty.TakesAtLeast 1 ∧ (entry symbols).TakesAtLeast 1 ∧
      (sequenceItem symbols).TakesAtLeast 1 ∧ (mark .not).TakesAtLeast 1 ∧
      ((mark .and).before (comparison expression)).TakesAtLeast 1 ∧
      ((mark .or).before (conjunction expression)).TakesAtLeast 1) ∧
    ∀ tokens : List Token,
      Plan.source.run (Callee.runWithin (tokens.length + 1)) tokens = .ok (source tokens) := by
  refine ⟨rule_sequence, rule_disjunction symbols,
    ⟨takes_one property (by decide), takes_one choiceProperty (by decide),
      takes_one (entry symbols) (by decide), takes_one (sequenceItem symbols) (by decide),
      .exactly _, takes_one ((mark .and).before (comparison expression)) (by decide),
      takes_one ((mark .or).before (conjunction expression)) (by decide)⟩, fun tokens => ?_⟩
  refine Plan.run_eq (choose_takes symbols_takes expression_takes) ?_ Plan.source
    (show Plan.source.Advances 1 by decide) tokens (Nat.le_refl _)
  intro callee rest fewer
  rw [run_within_eq callee fewer]
  cases callee <;> rfl

end Called

end KernelMenu.Grammar

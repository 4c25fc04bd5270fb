import KernelMenu.Proofs.ExpressionReading
import KernelMenu.Proofs.GuardPlace

/-!
Reading clauses. A guard is read behind a payload unless a brace follows it; then the failure that
is remembered behind the payload stands in front of the brace.
-/

namespace KernelMenu.Grammar

open KernelMenu.Grammar.Language

variable {Value Value' : Type}

/-- Nothing goes on behind a whole word. -/
def Ended (language : Language Value) : Prop :=
  ∀ word value token, language word value → ¬ language.Viable (word ++ [token])

theorem Shaped.ended {language : Language Value} {shape : Shape} (shaped : Shaped language shape)
    (none : shape.nexts = []) : Ended language := by
  intro word value token holds viable
  have member := shaped.next word value token holds viable
  rw [none] at member
  exact nomatch member

namespace Ended

variable {first : Language Value} {second : Language Value'} {front back : List Token}
  {value : Value}

theorem split_unique (ended : Ended first) {front' back' : List Token} {value' : Value}
    (holds : first front value) (holds' : first front' value')
    (same : front ++ back = front' ++ back') : front = front' ∧ back = back' := by
  have apart : ∀ {word spill : List Token} {token : Token} {value value' : Value},
      first word value → ¬ first (word ++ token :: spill) value' := by
    intro word spill token value value' holds longer
    have viable : first.Viable (word ++ [token] ++ spill) := by
      simpa using viable_of_word longer
    exact ended word value token holds viable.of_append
  rcases append_compare same with ⟨item, spill, rfl, -⟩ | ⟨spill, rfl, same'⟩
  · exact absurd holds' (apart holds)
  · rcases spill with _ | ⟨item, spill⟩
    · exact ⟨List.append_nil _, same'.symm⟩
    · exact absurd holds (apart holds')

theorem both_iff (ended : Ended first) (holds : first front value) {pair : Value × Value'} :
    (first.both second) (front ++ back) pair ↔ first front pair.1 ∧ second back pair.2 := by
  constructor
  · rintro ⟨left, right, same, first', second'⟩
    obtain ⟨rfl, rfl⟩ := ended.split_unique holds first' same
    exact ⟨first', second'⟩
  · rintro ⟨first', second'⟩
    exact ⟨front, back, rfl, first', second'⟩

theorem viable_both_iff (ended : Ended first) (holds : first front value) :
    (first.both second).Viable (front ++ back) ↔ second.Viable back := by
  constructor
  · rintro ⟨rest, pair, whole⟩
    rw [List.append_assoc] at whole
    exact ⟨rest, pair.2, ((ended.both_iff holds).1 whole).2⟩
  · exact viable_both_of_second holds

end Ended

theorem Listed.eq_nil {language : Language Value} {word rest : List Token} {wants : List Want}
    (listed : Listed language word rest wants)
    (stuck : ∀ token, ¬ language.Viable (word ++ [token])) (free : ¬ Blocked word rest) :
    wants = [] := by
  refine List.eq_nil_iff_forall_not_mem.2 fun want member => ?_
  cases want with
  | token wanted => exact stuck wanted ((listed.tokens wanted).1 ⟨_, member, rfl⟩).1
  | endOfInput => exact free (listed.ending.1 member)
  | oneOf tokens =>
      obtain ⟨token, has⟩ := tokens.exists_has
      exact stuck token ((listed.tokens token).1 ⟨_, member, has⟩).1

/-- Behind a word with nothing to go on, no attempt at more is remembered. -/
theorem Furthest.reach_of_ended {language : Language Value} {word rest : List Token}
    {value : Value} {missed : Option Failure} (ended : Ended language) (holds : language word value)
    (free : ¬ Blocked word rest)
    (furthest : Furthest language (word ++ rest) (Failure.reach word.length missed)) :
    Failure.reach word.length missed = ⟨word.length, []⟩ := by
  obtain ⟨word', rest', split, place, viable, stuck, listed⟩ := furthest
  have reached := Failure.le_reach_place word.length missed
  have same : word' = word := by
    rcases append_compare split with ⟨item, spill, rfl, -⟩ | ⟨spill, same, -⟩
    · have parts : language.Viable (word ++ [item] ++ spill) := by simpa using viable
      exact absurd parts.of_append (ended word value item holds)
    · rw [place, same, List.length_append] at reached
      have none := List.length_eq_zero_iff.1 (show spill.length = 0 by omega)
      rw [same, none, List.append_nil]
  subst same
  obtain rfl : rest = rest' := List.append_cancel_left split
  have wants := listed.eq_nil (fun token => ended word' value token holds) free
  generalize Failure.reach word'.length missed = failure at place wants
  cases failure
  simp_all

section Guard

theorem Phrase.guard_iff {word : List Token} {condition : Expr} :
    Guard word condition ↔ ((token (.keyword .guard)).before Bracketed) word condition := by
  rw [before_token_iff]
  constructor
  · exact guard_cons
  · rintro ⟨tail, rfl, bracketed⟩
    exact .intro bracketed

theorem keyword_reader (bound : Nat) {word : Keyword}
    (fixed : (Token.keyword word).kind ≠ .classed) :
    Reader bound (keyword word) (token (.keyword word)) (.one (Token.keyword word).kind) :=
  Reader.exactly bound fixed

def guardShape : Shape := ⟨[.keyword .guard], [], false, true⟩

theorem guard_head_reader (bound : Nat) :
    Reader bound ((keyword .guard).before bracketed) Phrase.Guard guardShape := by
  have word := keyword_reader bound (show (Token.keyword .guard).kind ≠ .classed from nofun)
  have bracketed := bracketed_reader bound
  refine ((word.both_of_follows bracketed ?_).map Prod.snd).congr fun _ _ => Phrase.guard_iff
  refine ⟨?_, ?_, ?_⟩
  · intro word' value token token' holds viable
    exact absurd viable (word.shaped.ended rfl _ _ _ holds)
  · intro front value spill holds viable filled behind
    obtain ⟨rfl, -⟩ := token_iff.1 holds
    have last := bracketed.shaped.guardless_of_viable rfl viable
    exact absurd ((behind_guard_iff [] last).1 behind).1 not_behind_payload_nil
  · intro front value holds behind
    obtain ⟨rfl, -⟩ := token_iff.1 holds
    exact absurd behind.one_lt_length (Nat.lt_irrefl 1)

theorem guard_ended : Ended Phrase.Guard := (guard_head_reader 0).shaped.ended rfl

theorem Phrase.guard_viable_cons {word : List Token} (viable : Language.Viable Guard word) :
    word = [] ∨ ∃ tail, word = .keyword .guard :: tail ∧ .keyword .guard ∉ tail := by
  obtain ⟨rest, condition, holds⟩ := viable
  obtain ⟨tail, same, bracketed⟩ := guard_cons holds
  rcases word with _ | ⟨token, word⟩
  · exact .inl rfl
  · obtain ⟨rfl, rfl⟩ := List.cons.inj same
    refine .inr ⟨word, rfl, fun member => ?_⟩
    exact bracketed_plain bracketed (List.mem_append_left rest member)

theorem Phrase.not_behind_guard {word : List Token} (viable : Language.Viable Guard word) :
    ¬ BehindGuard word := by
  rcases guard_viable_cons viable with rfl | ⟨tail, rfl, last⟩
  · exact not_behind_guard_nil
  · intro behind
    exact not_behind_payload_nil ((behind_guard_iff [] last).1 behind).1

/-- What the rule for guards gives: no guard, a guard, or a guard given up because of a brace. -/
inductive GuardRead (tokens : List Token) : Outcome Expr → Prop
  | absent {failure : Failure}
      (none : ∀ word rest condition, tokens = word ++ rest → ¬ Phrase.Guard word condition)
      (furthest : Furthest Phrase.Guard tokens failure) :
      GuardRead tokens (.ok .yes 0 (some failure))
  | taken {word rest : List Token} {condition : Expr} {missed : Option Failure}
      (split : tokens = word ++ rest) (holds : Phrase.Guard word condition)
      (only : ∀ condition', Phrase.Guard word condition' → condition' = condition)
      (free : rest.head? ≠ some (.mark .openBrace))
      (reach : Failure.reach word.length missed = ⟨word.length, []⟩) :
      GuardRead tokens (.ok condition word.length missed)
  | givenUp {word rest : List Token} {condition : Expr}
      (split : tokens = word ++ rest) (holds : Phrase.Guard word condition)
      (brace : rest.head? = some (.mark .openBrace)) :
      GuardRead tokens (.ok .yes 0 (some ⟨word.length, [.endOfInput]⟩))

theorem braceless_ahead (rest : List Token) :
    (rest.head? = some (.mark .openBrace) ∧
      ((Rule.otherThan (.mark .openBrace)).orElse Rule.endOfInput).ahead rest =
        .fail ⟨0, [.endOfInput]⟩) ∨
    (rest.head? ≠ some (.mark .openBrace) ∧ ∃ missed,
      ((Rule.otherThan (.mark .openBrace)).orElse Rule.endOfInput).ahead rest = .ok () 0 missed ∧
        Failure.reach 0 missed = ⟨0, []⟩) := by
  cases rest with
  | nil => exact .inr ⟨nofun, _, rfl, rfl⟩
  | cons token rest =>
      by_cases same : token = .mark .openBrace
      · subst same
        exact .inl ⟨rfl, rfl⟩
      · refine .inr ⟨by simpa using same, none, ?_, rfl⟩
        simp [Rule.ahead, Rule.orElse, Rule.otherThan, same]

theorem guard_read (tokens : List Token) : GuardRead tokens (guard tokens) := by
  have reads := (guard_head_reader (tokens.length + 1)).reads tokens (Nat.lt_succ_self _)
  unfold guard Rule.map Rule.optional Rule.closedBy Rule.map Rule.both
  dsimp only
  generalize ((keyword .guard).before bracketed) tokens = outcome at reads
  cases reads with
  | fail none furthest => exact .absent none furthest
  | @ok word rest condition missed split holds free longest only furthest =>
      subst split
      have quiet := furthest.reach_of_ended guard_ended holds free
      dsimp only
      rw [List.drop_left]
      rcases braceless_ahead rest with ⟨brace, ahead⟩ | ⟨braceless, missed', ahead, reach⟩
      · rw [ahead]
        have place :
            Failure.further ⟨word.length, []⟩ (Failure.shift word.length ⟨0, [.endOfInput]⟩) =
              ⟨word.length, [.endOfInput]⟩ := by
          simp [Failure.further, Failure.shift]
        have result := GuardRead.givenUp rfl holds brace
        rw [← place, ← quiet, ← Failure.further_shift_eq] at result
        exact result
      · rw [ahead]
        refine .taken rfl holds only braceless ?_
        have both := Failure.reach_both word.length 0 missed missed'
        rw [Nat.add_zero] at both
        rw [both, quiet, reach]
        simp [Failure.further, Failure.shift]

end Guard

section Clause

def Condition : Language Expr := (Maybe Phrase.Guard).map (Option.getD · .yes)

theorem condition_iff {word : List Token} {condition : Expr} : Condition word condition ↔
    word = [] ∧ condition = .yes ∨ Phrase.Guard word condition := by
  constructor
  · rintro ⟨found, holds, rfl⟩
    cases holds with
    | none => exact .inl ⟨rfl, rfl⟩
    | some holds => exact .inr holds
  · rintro (⟨rfl, rfl⟩ | holds)
    · exact ⟨none, .none, rfl⟩
    · exact ⟨some condition, .some holds, rfl⟩

theorem condition_viable_iff {word : List Token} :
    Condition.Viable word ↔ word = [] ∨ Phrase.Guard.Viable word := by
  rw [Condition, viable_map_iff, viable_maybe_iff]

theorem condition_stuck {guard : List Token} {condition : Expr}
    (holds : Phrase.Guard guard condition) (token : Token) :
    ¬ Condition.Viable (guard ++ [token]) := by
  rw [condition_viable_iff]
  rintro (none | viable)
  · simp at none
  · exact guard_ended guard condition token holds viable

/-- The words are keywords with their payloads. -/
def Payloads (language : Language Value) : Prop :=
  ∀ word value, language word value →
    ∃ name payload, Phrase.Payload name payload ∧ word = .keyword name :: payload

variable {first : Language Value} {front back : List Token} {value : Value}

theorem Payloads.behind (payloads : Payloads first) (holds : first front value) :
    BehindPayload front := by
  obtain ⟨name, payload, wellFormed, rfl⟩ := payloads front value holds
  exact ⟨[], name, payload, wellFormed, rfl⟩

theorem Payloads.plain (payloads : Payloads first) (holds : first front value) :
    .keyword .guard ∉ front := by
  obtain ⟨name, payload, wellFormed, rfl⟩ := payloads front value holds
  exact Phrase.payload_plain wellFormed

theorem Payloads.not_behind_guard (payloads : Payloads first) (holds : first front value) :
    ¬ BehindGuard front := fun behind => payloads.plain holds behind.guard_mem

namespace Furthest

/-- Where no guard stands behind the payload, one is looked for. -/
theorem guarded_of_absent (ended : Ended first) (payloads : Payloads first)
    (holds : first front value) {failure : Failure}
    (none : ∀ word rest condition, back = word ++ rest → ¬ Phrase.Guard word condition)
    (furthest : Furthest Phrase.Guard back failure) :
    Furthest (first.both Condition) (front ++ back) (failure.shift front.length) := by
  obtain ⟨word, rest, rfl, place, viable, stuck, listed⟩ := furthest
  have notBehind : ¬ BehindGuard word := Phrase.not_behind_guard viable
  have notBehind' : ¬ BehindGuard (front ++ word) := by
    rcases Phrase.guard_viable_cons viable with rfl | ⟨tail, rfl, last⟩
    · rw [List.append_nil]
      exact payloads.not_behind_guard holds
    · intro behind
      obtain ⟨-, condition, holds'⟩ := (behind_guard_iff front last).1 behind
      exact none _ rest condition rfl holds'
  have viable_iff : ∀ token, (first.both Condition).Viable (front ++ word ++ [token]) ↔
      Phrase.Guard.Viable (word ++ [token]) := by
    intro token
    rw [List.append_assoc, ended.viable_both_iff holds, condition_viable_iff]
    simp
  refine ⟨front ++ word, rest, (List.append_assoc _ _ _).symm, ?_, ?_, ?_, ?_, ?_,
    listed.fixed, listed.classes⟩
  · rw [Failure.shift_place, place, List.length_append]
  · exact (ended.viable_both_iff holds).2 (condition_viable_iff.2 (.inr viable))
  · intro token after same viable'
    exact stuck token after same ((viable_iff token).1 viable')
  · intro token
    rw [Failure.shift_wants, listed.tokens token, Sought, Sought, viable_iff]
    simp [notBehind, notBehind']
  · rw [Failure.shift_wants, listed.ending, Blocked, Blocked]
    simp [notBehind, notBehind']

/-- Behind a whole guard nothing is looked for but for the end that a brace stands in the way of. -/
theorem guarded_of_whole (ended : Ended first) (payloads : Payloads first)
    (holds : first front value) {guard rest : List Token} {condition : Expr}
    (holds' : Phrase.Guard guard condition) {wants : List Want}
    (known : rest.head? = some (.mark .openBrace) ∧ wants = [.endOfInput] ∨
      rest.head? ≠ some (.mark .openBrace) ∧ wants = []) :
    Furthest (first.both Condition) (front ++ (guard ++ rest))
      ⟨front.length + guard.length, wants⟩ := by
  have behind : BehindGuard (front ++ guard) := (payloads.behind holds).guard holds'
  have stuck : ∀ token, ¬ (first.both Condition).Viable (front ++ guard ++ [token]) := by
    intro token
    rw [List.append_assoc, ended.viable_both_iff holds]
    exact condition_stuck holds' token
  have only : ∀ want ∈ wants, want = .endOfInput := by
    rcases known with ⟨-, rfl⟩ | ⟨-, rfl⟩
    · exact fun want member => List.mem_singleton.1 member
    · exact nofun
  refine ⟨front ++ guard, rest, (List.append_assoc _ _ _).symm, List.length_append.symm, ?_, ?_,
    ?_, ?_, ?_, ?_⟩
  · refine (ended.viable_both_iff holds).2 (condition_viable_iff.2 (.inr ?_))
    exact viable_of_word holds'
  · exact fun token after same => stuck token
  · intro token
    constructor
    · rintro ⟨want, member, admits⟩
      rw [only want member] at admits
      exact admits.elim
    · exact fun sought => absurd sought.1 (stuck token)
  · rcases known with ⟨brace, rfl⟩ | ⟨braceless, rfl⟩
    · exact ⟨fun _ => ⟨behind, brace⟩, fun _ => List.mem_singleton_self _⟩
    · exact ⟨nofun, fun blocked => absurd blocked.2 braceless⟩
  · exact fun token member => nomatch only _ member
  · exact fun left right member => nomatch only _ member

end Furthest

/-- The words of a clause that begin a list: the payload alone, or all of the clause. -/
theorem guarded_word (ended : Ended first) (holds : first front value) {word rest : List Token}
    {pair : Value × Expr} (split : front ++ back = word ++ rest)
    (holds' : (first.both Condition) word pair) :
    ∃ guard, word = front ++ guard ∧ back = guard ++ rest ∧ first front pair.1 ∧
      Condition guard pair.2 := by
  obtain ⟨left, right, rfl, inFirst, inSecond⟩ := holds'
  rw [List.append_assoc] at split
  obtain ⟨rfl, rfl⟩ := ended.split_unique holds inFirst split
  exact ⟨right, rfl, rfl, inFirst, inSecond⟩

private theorem Reads.guarded_alone (ended : Ended first) (holds : first front value)
    (free : ¬ Blocked front back) (only : ∀ other, first front other → other = value)
    (barred : ∀ guard rest condition, back = guard ++ rest → Phrase.Guard guard condition →
      Blocked (front ++ guard) rest) {missed : Option Failure}
    (furthest : Furthest (first.both Condition) (front ++ back)
      (Failure.reach front.length missed)) :
    Reads (first.both Condition) (front ++ back) (.ok (value, .yes) front.length missed) := by
  have nothing : Condition [] .yes := condition_iff.2 (.inl ⟨rfl, rfl⟩)
  apply Reads.ok rfl ⟨front, [], (List.append_nil _).symm, holds, nothing⟩ free _ _ furthest
  · intro word rest pair split inBoth
    obtain ⟨guard, rfl, same, -, inSecond⟩ := guarded_word ended holds split inBoth
    rcases condition_iff.1 inSecond with ⟨rfl, -⟩ | inGuard
    · simp
    · exact .inr (barred guard rest pair.2 same inGuard)
  · intro pair inBoth
    rw [← List.append_nil front, ended.both_iff holds] at inBoth
    rcases condition_iff.1 inBoth.2 with ⟨-, same⟩ | inGuard
    · exact Prod.ext (only _ inBoth.1) same
    · exact absurd (Phrase.guard_cons inGuard) (by simp)

private theorem Reads.guarded_whole (ended : Ended first) (holds : first front value)
    (only : ∀ other, first front other → other = value) {guard rest : List Token}
    {condition : Expr} (holds' : Phrase.Guard guard condition)
    (only' : ∀ other, Phrase.Guard guard other → other = condition)
    (braceless : rest.head? ≠ some (.mark .openBrace)) {missed : Option Failure}
    (furthest : Furthest (first.both Condition) (front ++ (guard ++ rest))
      (Failure.reach (front ++ guard).length missed)) :
    Reads (first.both Condition) (front ++ (guard ++ rest))
      (.ok (value, condition) (front ++ guard).length missed) := by
  apply Reads.ok (List.append_assoc _ _ _).symm
    ⟨front, guard, rfl, holds, condition_iff.2 (.inr holds')⟩
    (fun blocked => braceless blocked.2) _ _ furthest
  · intro word rest' pair split inBoth
    obtain ⟨other, rfl, same, -, inSecond⟩ := guarded_word ended holds split inBoth
    rcases condition_iff.1 inSecond with ⟨rfl, -⟩ | inGuard
    · simp
    · obtain ⟨rfl, -⟩ := guard_ended.split_unique holds' inGuard same
      exact .inl (Nat.le_refl _)
  · intro pair inBoth
    rw [ended.both_iff holds] at inBoth
    rcases condition_iff.1 inBoth.2 with ⟨rfl, -⟩ | inGuard
    · exact absurd (Phrase.guard_cons holds') (by simp)
    · exact Prod.ext (only _ inBoth.1) (only' _ inGuard)

theorem Reads.guarded {rule : Rule Value} {tokens : List Token} (ended : Ended first)
    (payloads : Payloads first) (reads : Reads first tokens (rule tokens)) :
    Reads (first.both Condition) tokens ((rule.both guard) tokens) := by
  unfold Rule.both
  generalize rule tokens = outcome at reads
  cases reads with
  | fail none furthest =>
      refine .fail ?_ (furthest.both_of_first none ⟨[], .yes, condition_iff.2 (.inl ⟨rfl, rfl⟩)⟩)
      rintro word rest pair rfl ⟨front, back, rfl, holds, -⟩
      exact none front (back ++ rest) pair.1 (List.append_assoc _ _ _) holds
  | @ok front back value missed split holds free longest only furthest =>
      subst split
      have quiet := furthest.reach_of_ended ended holds free
      have reach : ∀ used missed',
          Failure.reach (front.length + used)
            (Failure.further? missed (missed'.map (Failure.shift front.length))) =
          (Failure.reach used missed').shift front.length := by
        intro used missed'
        rw [Failure.reach_both, quiet, Failure.further_shift]
      have alone : ∀ failure : Failure,
          Failure.reach front.length
              (Failure.further? missed ((some failure).map (Failure.shift front.length))) =
            failure.shift front.length := by
        intro failure
        have place := reach 0 (some failure)
        rwa [Failure.reach_zero, Nat.add_zero] at place
      dsimp only
      rw [List.drop_left]
      have result := guard_read back
      generalize guard back = outcome at result
      cases result with
      | @absent failure none furthest' =>
          apply Reads.guarded_alone ended holds free only
          · intro guard rest condition same inGuard
            exact absurd inGuard (none guard rest condition same)
          · rw [alone]
            exact furthest'.guarded_of_absent ended payloads holds none
      | @taken guard rest condition missed' split holds' only' braceless reach' =>
          subst split
          dsimp only
          rw [← List.length_append]
          apply Reads.guarded_whole ended holds only holds' only' braceless
          rw [List.length_append, reach, reach']
          exact Furthest.guarded_of_whole ended payloads holds holds' (.inr ⟨braceless, rfl⟩)
      | @givenUp guard rest condition split holds' brace =>
          subst split
          have behind := (payloads.behind holds).guard holds'
          apply Reads.guarded_alone ended holds free only
          · intro other rest' condition' same inGuard
            obtain ⟨rfl, rfl⟩ := guard_ended.split_unique holds' inGuard same
            exact ⟨behind, brace⟩
          · rw [alone]
            exact Furthest.guarded_of_whole ended payloads holds holds' (.inl ⟨brace, rfl⟩)

theorem Reader.guarded {bound : Nat} {rule : Rule Value} {shape : Shape}
    (reader : Reader bound rule first shape) (ended : shape.nexts = [])
    (filled : shape.empty = false) (payloads : Payloads first) :
    Reader bound (rule.both guard) (first.both Condition)
      ⟨shape.firsts, [.keyword .guard], false, true⟩ where
  reads tokens short := (reader.reads tokens short).guarded (reader.shaped.ended ended) payloads
  shaped := {
    inhabited := by
      obtain ⟨word, value, holds⟩ := reader.shaped.inhabited
      exact ⟨_, (value, .yes), word, [], rfl, holds, condition_iff.2 (.inl ⟨rfl, rfl⟩)⟩
    first := by
      intro token viable
      rcases viable.of_both with inFirst | ⟨front, back, value, same, some, holds, -⟩
      · exact reader.shaped.first token inFirst
      · rcases front with _ | ⟨other, front⟩
        · exact absurd holds (reader.shaped.filled filled value)
        · exact absurd (List.append_eq_nil_iff.1 (List.cons.inj same).2.symm).2 some
    next := by
      rintro word pair token ⟨front, guard, rfl, holds, holds'⟩ viable
      rw [List.append_assoc, (reader.shaped.ended ended).viable_both_iff holds] at viable
      rcases condition_iff.1 holds' with ⟨rfl, -⟩ | holds'
      · rcases condition_viable_iff.1 viable with none | viable
        · simp at none
        · exact (guard_head_reader bound).shaped.first token viable
      · exact absurd viable (condition_stuck holds' token)
    filled := by
      rintro - pair ⟨front, guard, same, holds, -⟩
      rw [(List.append_eq_nil_iff.1 same.symm).1] at holds
      exact reader.shaped.filled filled _ holds
    guardless := nofun }

def Clause (name : Keyword) (payload : Language Value) : Language (Guarded Value) :=
  (((token (.keyword name)).before payload).both Condition).map fun (payload, condition) =>
    ⟨payload, condition⟩

theorem clause_iff {name : Keyword} {payload : Language Value} {word : List Token}
    {value : Guarded Value} : Clause name payload word value ↔ ∃ front guard,
      word = .keyword name :: front ++ guard ∧ payload front value.payload ∧
        Condition guard value.condition := by
  constructor
  · rintro ⟨⟨value, condition⟩, ⟨front, guard, rfl, first, second⟩, rfl⟩
    obtain ⟨front, rfl, holds⟩ := before_token_iff.1 first
    exact ⟨front, guard, rfl, holds, second⟩
  · rintro ⟨front, guard, rfl, holds, holds'⟩
    exact ⟨(value.payload, value.condition),
      ⟨_, guard, rfl, before_token_iff.2 ⟨front, rfl, holds⟩, holds'⟩, rfl⟩

theorem clause_reader {bound : Nat} {name : Keyword} {rule : Rule Value} {payload : Language Value}
    {shape : Shape} (reader : Reader bound rule payload shape) (ended : shape.nexts = [])
    (none : shape.guards = false)
    (payloads : ∀ word value, payload word value → Phrase.Payload name word) :
    Reader bound (clause name rule) (Clause name payload)
      ⟨[.keyword name], [.keyword .guard], false, true⟩ := by
  obtain ⟨word, value, holds⟩ := reader.shaped.inhabited
  have wellFormed := payloads word value holds
  have kind : (Token.keyword name).kind = .keyword name := by
    cases wellFormed <;> rfl
  have other : name ≠ .guard := by
    cases wellFormed <;> decide
  have head := keyword_reader bound (show (Token.keyword name).kind ≠ .classed by rw [kind]; nofun)
  rw [kind] at head
  have first := (head.both reader nofun (by simpa [Shape.one] using other) none).map Prod.snd
  refine (first.guarded ?_ rfl ?_).map _
  · simp [Shape.both, Shape.one, ended]
  · intro word value holds
    obtain ⟨front, rfl, holds'⟩ := before_token_iff.1 holds
    exact ⟨name, front, payloads front value holds', rfl⟩

end Clause

end KernelMenu.Grammar

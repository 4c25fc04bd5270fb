import KernelMenu.Proofs.Shape

/-!
Each way to build a rule reads the language that is built in the same way. A rule that is defined
through itself reads a language if its body does, given that the rule does so on shorter lists.
-/

namespace KernelMenu.Grammar

variable {Value Value' : Type}

theorem BehindGuard.one_lt_length {word : List Token} (behind : BehindGuard word) :
    1 < word.length := by
  obtain ⟨before, name, payload, guard, condition, -, holds, rfl⟩ := behind
  cases holds with
  | intro bracketed =>
      simp only [List.length_append, List.length_cons]
      omega

namespace Listed

variable {language : Language Value} {language' : Language Value'} {word rest : List Token}
  {wants : List Want}

theorem congr (listed : Listed language word rest wants)
    (same : ∀ token, language.Viable (word ++ [token]) ↔ language'.Viable (word ++ [token])) :
    Listed language' word rest wants where
  tokens token := (listed.tokens token).trans (and_congr_left fun _ => same token)
  ending := listed.ending
  fixed := listed.fixed
  classes := listed.classes

theorem nothing (stuck : ∀ token, ¬ language.Viable (word ++ [token]))
    (free : ¬ Blocked word rest) : Listed language word rest [] where
  tokens token := by
    simp only [List.not_mem_nil, false_and, exists_false, false_iff]
    exact fun sought => stuck token sought.1
  ending := by simp [free]
  fixed := by simp
  classes := by simp

theorem single {want : Want} (admits : ∀ token, want.Admits token ↔ language.Viable [token])
    (fixed : ∀ token, want = .token token → token.kind ≠ .classed) (ending : want ≠ .endOfInput) :
    Listed language [] rest [want] where
  tokens token := by
    simp only [List.mem_singleton, exists_eq_left]
    rw [admits]
    exact ⟨fun viable => ⟨viable, fun behind => absurd behind not_behind_guard_nil⟩, And.left⟩
  ending := by
    constructor
    · intro member
      exact absurd (List.mem_singleton.1 member).symm ending
    · intro blocked
      exact absurd blocked.1 not_behind_guard_nil
  fixed token member := fixed token (List.mem_singleton.1 member).symm
  classes left right member member' :=
    Want.oneOf.inj ((List.mem_singleton.1 member).trans (List.mem_singleton.1 member').symm)

end Listed

namespace Furthest

variable {language : Language Value} {language' : Language Value'} {tokens : List Token}
  {failure : Failure}

theorem congr_from {front back : List Token}
    (furthest : Furthest language (front ++ back) failure)
    (reached : front.length ≤ failure.place)
    (same : ∀ more, language.Viable (front ++ more) ↔ language'.Viable (front ++ more)) :
    Furthest language' (front ++ back) failure := by
  obtain ⟨word, rest, split, place, viable, stuck, listed⟩ := furthest
  obtain ⟨more, rfl⟩ : ∃ more, word = front ++ more := by
    rcases append_compare split with ⟨item, spill, rfl, -⟩ | ⟨spill, same, -⟩
    · exact ⟨_, rfl⟩
    · refine ⟨[], ?_⟩
      rw [place, same, List.length_append] at reached
      have none := List.length_eq_zero_iff.1 (show spill.length = 0 by omega)
      rw [same, none]
      simp
  refine ⟨front ++ more, rest, split, place, (same more).1 viable, ?_, ?_⟩
  · intro token after next viable'
    apply stuck token after next
    rw [List.append_assoc] at viable' ⊢
    exact (same _).2 viable'
  · refine listed.congr fun token => ?_
    rw [List.append_assoc]
    exact same _

theorem congr (furthest : Furthest language tokens failure)
    (same : ∀ word, language.Viable word ↔ language'.Viable word) :
    Furthest language' tokens failure :=
  congr_from (show Furthest language ([] ++ tokens) failure from furthest) (Nat.zero_le _)
    fun more => same ([] ++ more)

end Furthest

namespace Reads

variable {language : Language Value} {tokens : List Token}

theorem map {change : Value → Value'} {rule : Rule Value}
    (reads : Reads language tokens (rule tokens)) :
    Reads (language.map change) tokens (rule.map change tokens) := by
  unfold Rule.map
  generalize rule tokens = outcome at reads
  cases reads with
  | ok split holds free longest only furthest =>
      refine .ok split ⟨_, holds, rfl⟩ free ?_ ?_
        (furthest.congr fun _ => Language.viable_map_iff.symm)
      · rintro word' rest' - split' ⟨value', holds', rfl⟩
        exact longest word' rest' value' split' holds'
      · rintro - ⟨value', holds', rfl⟩
        rw [only value' holds']
  | fail none furthest =>
      refine .fail ?_ (furthest.congr fun _ => Language.viable_map_iff.symm)
      rintro word rest - split ⟨value, holds, -⟩
      exact none word rest value split holds

private theorem one_missed {meaning : Token → Option Value} (want : Want)
    (admits : ∀ token, want.Admits token ↔ (meaning token).isSome)
    (possible : ∃ token, want.Admits token)
    (fixed : ∀ token, want = .token token → token.kind ≠ .classed) {tokens : List Token}
    (stuck : ∀ token after, tokens = token :: after → meaning token = none) :
    Reads (Language.one meaning) tokens (.fail ⟨0, [want]⟩) := by
  have viable_iff : ∀ token, want.Admits token ↔ (Language.one meaning).Viable [token] := by
    intro token
    rw [admits, Option.isSome_iff_exists]
    constructor
    · rintro ⟨value, found⟩
      exact ⟨[], value, token, rfl, found⟩
    · rintro ⟨rest, value, other, same, found⟩
      obtain rfl : token = other := (List.cons.inj same).1
      exact ⟨value, found⟩
  obtain ⟨other, wanted⟩ := possible
  have ending : want ≠ .endOfInput := by
    rintro rfl
    exact wanted
  refine .fail ?_ ⟨[], tokens, rfl, rfl, ((viable_iff other).1 wanted).inhabited, ?_,
    .single viable_iff fixed ending⟩
  · rintro - rest value rfl ⟨token, rfl, found⟩
    rw [stuck token rest rfl] at found
    exact nomatch found
  · intro token after same viable
    have found := (admits token).1 ((viable_iff token).2 viable)
    rw [stuck token after same] at found
    exact nomatch found

private theorem one_found {meaning : Token → Option Value} {token : Token} {rest : List Token}
    {value : Value} (meant : meaning token = some value) :
    Reads (Language.one meaning) (token :: rest) (.ok value 1 none) := by
  have stuck : ∀ other, ¬ (Language.one meaning).Viable ([token] ++ [other]) := by
    rintro other ⟨rest, value, another, same, -⟩
    have lengths := congrArg List.length same
    simp at lengths
  have free : ¬ Blocked [token] rest := fun blocked =>
    absurd blocked.1.one_lt_length (by simp)
  refine Reads.ok (show token :: rest = [token] ++ rest from rfl) ⟨token, rfl, meant⟩
    free ?_ ?_ ⟨[token], rest, rfl, rfl, ⟨[], value, token, rfl, meant⟩,
      fun other _ _ => stuck other, .nothing stuck free⟩
  · rintro - rest' value' - ⟨other, rfl, -⟩
    exact .inl (Nat.le_refl _)
  · rintro value' ⟨other, same, meant'⟩
    obtain rfl : token = other := (List.cons.inj same).1
    exact Option.some.inj (meant'.symm.trans meant)

theorem one {meaning : Token → Option Value} {rule : Rule Value} (want : Want)
    (admits : ∀ token, want.Admits token ↔ (meaning token).isSome)
    (possible : ∃ token, want.Admits token)
    (fixed : ∀ token, want = .token token → token.kind ≠ .classed)
    (found : ∀ token rest value, meaning token = some value →
      rule (token :: rest) = .ok value 1 none)
    (missed : ∀ token rest, meaning token = none → rule (token :: rest) = .fail ⟨0, [want]⟩)
    (ended : rule [] = .fail ⟨0, [want]⟩) :
    Reads (Language.one meaning) tokens (rule tokens) := by
  cases tokens with
  | nil =>
      rw [ended]
      apply one_missed want admits possible fixed
      intro token after same
      cases same
  | cons token rest =>
      cases meant : meaning token with
      | none =>
          rw [missed token rest meant]
          apply one_missed want admits possible fixed
          intro other after same
          rwa [← (List.cons.inj same).1]
      | some value =>
          rw [found token rest value meant]
          exact one_found meant

end Reads

/-- No word of one language begins like a word of the other, and nothing is a word of neither. -/
structure Alternatives (first second : Language Value) : Prop where
  apart : ∀ token token', first.Viable [token] → second.Viable [token'] →
    token.kind ≠ token'.kind
  filled : ∀ value, ¬ first [] value
  filled' : ∀ value, ¬ second [] value

namespace Alternatives

variable {first second : Language Value}

theorem swap (alternatives : Alternatives first second) : Alternatives second first where
  apart token token' viable viable' :=
    (alternatives.apart token' token viable' viable).symm
  filled := alternatives.filled'
  filled' := alternatives.filled

theorem either_viable_iff (alternatives : Alternatives first second) {token : Token}
    (viable : first.Viable [token]) (more : List Token) :
    first.Viable ([token] ++ more) ↔ (first.either second).Viable ([token] ++ more) := by
  rw [Language.viable_either_iff]
  refine ⟨.inl, fun viable' => viable'.resolve_right fun inSecond => ?_⟩
  exact alternatives.apart token token viable inSecond.of_append rfl

end Alternatives

namespace Furthest

variable {first second : Language Value} {tokens : List Token} {left right : Failure}

theorem place_eq_zero {language : Language Value} {token : Token} {rest : List Token}
    {failure : Failure} (furthest : Furthest language (token :: rest) failure)
    (stuck : ¬ language.Viable [token]) : failure.place = 0 := by
  obtain ⟨word, rest', split, place, viable, -, -⟩ := furthest
  rcases word with _ | ⟨item, word⟩
  · exact place
  · obtain rfl : token = item := (List.cons.inj split).1
    have parts : language.Viable ([token] ++ word) := viable
    exact absurd parts.of_append stuck

theorem viable_first {language : Language Value} {token : Token} {rest : List Token}
    {failure : Failure} (furthest : Furthest language (token :: rest) failure)
    (later : 0 < failure.place) : language.Viable [token] := by
  obtain ⟨word, rest', split, place, viable, -, -⟩ := furthest
  rcases word with _ | ⟨item, word⟩
  · rw [place] at later
    exact absurd later (Nat.lt_irrefl 0)
  · obtain rfl : token = item := (List.cons.inj split).1
    have parts : language.Viable ([token] ++ word) := viable
    exact parts.of_append

private theorem either_at_start (alternatives : Alternatives first second)
    (furthest : Furthest first tokens left) (furthest' : Furthest second tokens right)
    (start : left.place = 0) (start' : right.place = 0) :
    Furthest (first.either second) tokens ⟨0, left.wants ++ right.wants⟩ := by
  obtain ⟨word, rest, split, place, viable, stuck, listed⟩ := furthest
  obtain ⟨word', rest', split', place', viable', stuck', listed'⟩ := furthest'
  obtain rfl : word = [] := List.length_eq_zero_iff.1 (place.symm.trans start)
  obtain rfl : word' = [] := List.length_eq_zero_iff.1 (place'.symm.trans start')
  obtain rfl : tokens = rest := split
  obtain rfl : tokens = rest' := split'
  have apart : ∀ one other, .oneOf one ∈ left.wants → .oneOf other ∈ right.wants →
      one = other := by
    intro one other member member'
    obtain ⟨token, has⟩ := one.exists_has
    obtain ⟨token', has'⟩ := other.exists_has
    have sought := (listed.tokens token).1 ⟨_, member, has⟩
    have sought' := (listed'.tokens token').1 ⟨_, member', has'⟩
    exact absurd ((TokenClass.classed_of_has has).trans (TokenClass.classed_of_has has').symm)
      (alternatives.apart token token' sought.1 sought'.1)
  refine ⟨[], tokens, rfl, rfl, Language.viable_either_iff.2 (.inl viable), ?_,
    listed.append listed' (fun token => ?_) (or_self_iff).symm apart⟩
  · intro token after same inEither
    rcases Language.viable_either_iff.1 inEither with inFirst | inSecond
    · exact stuck token after same inFirst
    · exact stuck' token after same inSecond
  · rw [Language.Sought, Language.Sought, Language.Sought, Language.viable_either_iff,
      or_and_right]

theorem either (alternatives : Alternatives first second)
    (furthest : Furthest first tokens left) (furthest' : Furthest second tokens right) :
    Furthest (first.either second) tokens (left.further right) := by
  by_cases start : left.place = 0
  · by_cases start' : right.place = 0
    · rw [Failure.further_of_eq (start.trans start'.symm), start]
      exact either_at_start alternatives furthest furthest' start start'
    · rw [Failure.further_of_lt (by omega)]
      cases tokens with
      | nil =>
          obtain ⟨word, rest, split, place, -⟩ := furthest'
          rw [(List.append_eq_nil_iff.1 split.symm).1] at place
          exact absurd place start'
      | cons token tokens =>
          have viable := furthest'.viable_first (Nat.pos_of_ne_zero start')
          rw [Language.either_comm]
          exact congr_from (show Furthest second ([token] ++ tokens) right from furthest')
            (Nat.pos_of_ne_zero start') (alternatives.swap.either_viable_iff viable)
  · cases tokens with
    | nil =>
        obtain ⟨word, rest, split, place, -⟩ := furthest
        rw [(List.append_eq_nil_iff.1 split.symm).1] at place
        exact absurd place start
    | cons token tokens =>
        have viable := furthest.viable_first (Nat.pos_of_ne_zero start)
        have start' := furthest'.place_eq_zero fun viable' =>
          alternatives.apart token token viable viable' rfl
        rw [Failure.further_of_gt (by omega)]
        exact congr_from (show Furthest first ([token] ++ tokens) left from furthest)
          (Nat.pos_of_ne_zero start) (alternatives.either_viable_iff viable)

end Furthest

namespace Reads

variable {first second : Language Value} {tokens : List Token}

theorem either_of_first (alternatives : Alternatives first second) {value : Value} {used : Nat}
    {missed missed' : Option Failure} (reads : Reads first tokens (.ok value used missed))
    (same : Failure.reach used missed' = Failure.reach used missed) :
    Reads (first.either second) tokens (.ok value used missed') := by
  cases reads with
  | @ok word rest _ _ split holds free longest only furthest =>
      rcases word with _ | ⟨token, word⟩
      · exact absurd holds (alternatives.filled value)
      have parts : first.Viable ([token] ++ word) := Language.viable_of_word holds
      have viable := parts.of_append
      have notSecond : ∀ word' value', second (token :: word') value' → False := by
        intro word' value' holds'
        have parts' : second.Viable ([token] ++ word') := Language.viable_of_word holds'
        exact alternatives.apart token token viable parts'.of_append rfl
      refine .ok split (.inl holds) free ?_ ?_ ?_
      · rintro word' rest' value' split' (holds' | holds')
        · exact longest word' rest' value' split' holds'
        · rcases word' with _ | ⟨token', word'⟩
          · exact absurd holds' (alternatives.filled' value')
          · rw [split] at split'
            obtain rfl : token = token' := (List.cons.inj split').1
            exact (notSecond word' value' holds').elim
      · rintro value' (holds' | holds')
        · exact only value' holds'
        · exact (notSecond word value' holds').elim
      · rw [same]
        subst split
        have reached := Failure.le_reach_place (token :: word).length missed
        change Furthest first ([token] ++ (word ++ rest)) _ at furthest
        change Furthest (first.either second) ([token] ++ (word ++ rest)) _
        exact furthest.congr_from (Nat.le_trans (by simp) reached)
          (alternatives.either_viable_iff viable)

theorem either_of_second (alternatives : Alternatives first second) {value : Value} {used : Nat}
    {missed missed' : Option Failure} (reads : Reads second tokens (.ok value used missed))
    (same : Failure.reach used missed' = Failure.reach used missed) :
    Reads (first.either second) tokens (.ok value used missed') := by
  rw [Language.either_comm]
  exact reads.either_of_first alternatives.swap same

theorem either_of_fail (alternatives : Alternatives first second) {left right : Failure}
    (reads : Reads first tokens (.fail left)) (reads' : Reads second tokens (.fail right)) :
    Reads (first.either second) tokens (.fail (left.further right)) := by
  cases reads with
  | fail none furthest =>
      cases reads' with
      | fail none' furthest' =>
          refine .fail ?_ (furthest.either alternatives furthest')
          rintro word rest value split (holds | holds)
          · exact none word rest value split holds
          · exact none' word rest value split holds

end Reads

namespace Reads

variable {first second language : Language Value} {rule rule' : Rule Value} {tokens : List Token}

theorem orElse (alternatives : Alternatives first second) (reads : Reads first tokens (rule tokens))
    (reads' : Reads second tokens (rule' tokens)) :
    Reads (first.either second) tokens (rule.orElse rule' tokens) := by
  unfold Rule.orElse
  generalize rule tokens = outcome at reads
  generalize rule' tokens = outcome' at reads'
  cases outcome with
  | ok value used missed => exact reads.either_of_first alternatives rfl
  | fail failure =>
      cases outcome' with
      | fail failure' => exact reads.either_of_fail alternatives reads'
      | ok value used missed =>
          apply reads'.either_of_second alternatives
          have start : failure.place = 0 ∧ 0 < used := by
            cases reads' with
            | @ok word rest _ _ split holds =>
                rcases word with _ | ⟨token, word⟩
                · exact absurd holds (alternatives.filled' value)
                · subst split
                  refine ⟨?_, Nat.zero_lt_succ _⟩
                  have viable : second.Viable ([token] ++ word) := Language.viable_of_word holds
                  cases reads with
                  | fail none furthest =>
                      exact furthest.place_eq_zero fun viable' =>
                        alternatives.apart token token viable' viable.of_append rfl
          have short : failure.place < used := by omega
          cases missed with
          | none => exact Failure.further_of_gt short
          | some missed =>
              simp only [Failure.reach, Failure.further?, Failure.further]
              grind

theorem firstOf_cons {rules : List (Rule Value)} (alternatives : Alternatives first second)
    (reads : Reads first tokens (rule tokens))
    (reads' : Reads second tokens (Rule.firstOf rule' rules tokens)) :
    Reads (first.either second) tokens (Rule.firstOf rule (rule' :: rules) tokens) := by
  dsimp only [Rule.firstOf]
  generalize rule tokens = outcome at reads
  generalize Rule.firstOf rule' rules tokens = outcome' at reads'
  cases outcome with
  | ok value used missed => exact reads.either_of_first alternatives rfl
  | fail failure =>
      cases outcome' with
      | ok value used missed => exact reads'.either_of_second alternatives rfl
      | fail failure' => exact reads.either_of_fail alternatives reads'

theorem optional (filled : ∀ value, ¬ language [] value)
    (reads : Reads language tokens (rule tokens)) :
    Reads (Maybe language) tokens (rule.optional tokens) := by
  have viable_iff : language.Inhabited → ∀ word, language.Viable word ↔
      Language.Viable (Maybe language) word := by
    intro inhabited word
    rw [Language.viable_maybe_iff]
    refine ⟨.inr, fun viable => viable.elim ?_ id⟩
    rintro rfl
    exact inhabited
  unfold Rule.optional
  generalize rule tokens = outcome at reads
  cases reads with
  | ok split holds free longest only furthest =>
      refine .ok split (.some holds) free ?_ ?_ (furthest.congr (viable_iff ⟨_, _, holds⟩))
      · intro word' rest' value' split' holds'
        cases holds' with
        | none => exact .inl (Nat.zero_le _)
        | some holds' => exact longest word' rest' _ split' holds'
      · intro value' holds'
        cases holds' with
        | none => exact absurd holds (filled _)
        | some holds' => rw [only _ holds']
  | @fail failure none furthest =>
      have inhabited : language.Inhabited := by
        obtain ⟨word, rest, -, -, viable, -⟩ := furthest
        exact viable.inhabited
      refine Reads.ok (show tokens = [] ++ tokens from rfl) .none
        (fun blocked => not_behind_guard_nil blocked.1) ?_ ?_ ?_
      · intro word' rest' value' split' holds'
        cases holds' with
        | none => exact .inl (Nat.le_refl _)
        | some holds' => exact absurd holds' (none word' rest' _ split')
      · intro value' holds'
        cases holds' with
        | none => rfl
        | some holds' => exact absurd holds' (filled _)
      · rw [List.length_nil, Failure.reach_zero]
        exact furthest.congr (viable_iff inhabited)

end Reads

namespace Rule

theorem many_ne_fail (rule : Rule Value) (tokens : List Token) (failure : Failure) :
    rule.many tokens ≠ .fail failure := by
  induction length : tokens.length using Nat.strongRecOn generalizing tokens failure with
  | ind count induction =>
      rw [many]
      split
      · intro same
        cases same
      · split
        case isTrue fits =>
          have shorter : (tokens.drop ‹Nat›).length < count := by
            rw [List.length_drop]
            omega
          split
          · intro same
            cases same
          case h_2 failed => exact absurd failed (induction _ shorter _ _ rfl)
        case isFalse =>
          intro same
          cases same

/-- Repetition is an optional first turn with a repetition behind it. -/
theorem many_eq (rule : Rule Value) (tokens : List Token)
    (progress : ∀ value used missed, rule tokens = .ok value used missed →
      0 < used ∧ used ≤ tokens.length) :
    rule.many tokens =
      (((rule.both rule.many).map fun pair => pair.1 :: pair.2).optional.map
        fun found => found.getD []) tokens := by
  rw [many]
  simp only [Rule.map, optional, Rule.both]
  cases first : rule tokens with
  | fail failure => rfl
  | ok value used missed =>
      have fits := progress value used missed first
      dsimp only
      rw [dif_pos fits]
      cases rest : rule.many (tokens.drop used) with
      | ok values used' missed' => rfl
      | fail failure => exact absurd rest (many_ne_fail rule _ failure)

end Rule

theorem Reads.many {language : Language Value} {rule : Rule Value} {tokens : List Token}
    (filled : ∀ value, ¬ language [] value) (follows : Follows language (Star language))
    (reads : ∀ front back, tokens = front ++ back → Reads language back (rule back)) :
    Reads (Star language) tokens (rule.many tokens) := by
  induction length : tokens.length using Nat.strongRecOn generalizing tokens with
  | ind count induction =>
      have now := reads [] tokens rfl
      rw [Rule.many_eq, star_eq]
      · refine Reads.map (Reads.optional ?_ (Reads.map ?_))
        · rintro values ⟨pair, ⟨front, back, same, holds, -⟩, -⟩
          rw [(List.append_eq_nil_iff.1 same.symm).1] at holds
          exact filled _ holds
        · apply now.both_of_follows ⟨[], [], .nil⟩ follows
          rintro front back value rfl holds
          rcases front with _ | ⟨token, front⟩
          · exact absurd holds (filled value)
          · refine induction back.length ?_ (fun spill rest same => ?_) rfl
            · rw [← length, List.length_append, List.length_cons]
              omega
            · exact reads (token :: front ++ spill) rest (by rw [same, List.append_assoc])
      · intro value used missed found
        rw [found] at now
        cases now with
        | @ok word rest _ _ split holds =>
            rcases word with _ | ⟨token, word⟩
            · exact absurd holds (filled value)
            · rw [split]
              simp

def ReadsBelow (bound : Nat) (rule : Rule Value) (language : Language Value) : Prop :=
  ∀ tokens : List Token, tokens.length < bound → Reads language tokens (rule tokens)

/-- A rule reads what its body reads, if the body calls it only on fewer tokens. -/
theorem ReadsBelow.recursive {language : Language Value} {body : Rule Value → Rule Value}
    (step : ∀ bound rule, ReadsBelow bound rule language →
      ReadsBelow (bound + 1) (body rule) language) (bound : Nat) :
    ReadsBelow bound (Rule.recursive body) language := by
  induction bound with
  | zero => exact fun tokens short => absurd short (Nat.not_lt_zero _)
  | succ bound induction =>
      intro tokens short
      rw [Rule.recursive]
      refine step tokens.length _ ?_ tokens (Nat.lt_succ_self _)
      intro rest shorter
      dsimp only
      rw [dif_pos shorter]
      exact induction rest (by omega)

end KernelMenu.Grammar

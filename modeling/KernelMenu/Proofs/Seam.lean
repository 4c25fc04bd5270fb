import KernelMenu.Proofs.Reading

/-!
Reading one language after the other. The seam between a word of the first and the tokens behind it
is sound if every way to go on from there goes through this very seam; then the failure that reached
further is the furthest one of the sequence.
-/

namespace KernelMenu.Grammar

variable {Value Value' : Type}

theorem BehindGuard.append {word : List Token} (behind : BehindGuard word) (front : List Token) :
    BehindGuard (front ++ word) := by
  obtain ⟨before, name, payload, guard, condition, wellFormed, holds, rfl⟩ := behind
  exact ⟨front ++ before, name, payload, guard, condition, wellFormed, holds, by simp⟩

theorem Blocked.append {word rest : List Token} (blocked : Blocked word rest)
    (front : List Token) : Blocked (front ++ word) rest :=
  ⟨blocked.1.append front, blocked.2⟩

theorem not_behind_guard_nil : ¬ BehindGuard [] := by
  rintro ⟨before, name, payload, guard, condition, -, -, split⟩
  simp at split

/-- Of two fronts of a list, one goes on with a token where the other ends, or they come in the
other order. -/
theorem append_compare {Item : Type} {left rest right rest' : List Item}
    (same : left ++ rest = right ++ rest') :
    (∃ item spill, right = left ++ item :: spill ∧ rest = item :: spill ++ rest') ∨
      ∃ spill, left = right ++ spill ∧ rest' = spill ++ rest := by
  rcases List.append_eq_append_iff.1 same with ⟨spill, same, same'⟩ | more
  · rcases spill with _ | ⟨item, spill⟩
    · exact .inr ⟨[], by simpa using same.symm, by simpa using same'.symm⟩
    · exact .inl ⟨item, spill, same, same'⟩
  · exact .inr more

theorem Language.not_viable_past {language : Language Value} {word rest longer rest' : List Token}
    (split : word ++ rest = longer ++ rest')
    (stuck : ∀ token after, rest = token :: after → ¬ language.Viable (word ++ [token]))
    (later : word.length < longer.length) : ¬ language.Viable longer := by
  intro viable
  rcases append_compare split with ⟨token, spill, rfl, same⟩ | ⟨spill, rfl, -⟩
  · have start : language.Viable (word ++ [token] ++ spill) := by simpa using viable
    exact stuck token (spill ++ rest') same start.of_append
  · rw [List.length_append] at later
    omega

namespace Failure

theorem further_place (left right : Failure) :
    (left.further right).place = max left.place right.place := by
  unfold further
  split
  · omega
  · split
    · omega
    · dsimp only
      omega

theorem further_of_lt {left right : Failure} (before : left.place < right.place) :
    left.further right = right := by
  simp [further, before]

theorem further_of_gt {left right : Failure} (after : right.place < left.place) :
    left.further right = left := by
  simp [further, after, Nat.not_lt.2 (Nat.le_of_lt after)]

theorem further_of_eq {left right : Failure} (same : left.place = right.place) :
    left.further right = ⟨left.place, left.wants ++ right.wants⟩ := by
  simp [further, same]

theorem le_reach_place (used : Nat) (missed : Option Failure) :
    used ≤ (reach used missed).place := by
  cases missed with
  | none => exact Nat.le_refl _
  | some missed =>
      rw [reach, further_place]
      exact Nat.le_max_left _ _

@[simp] theorem shift_place (count : Nat) (failure : Failure) :
    (failure.shift count).place = count + failure.place := rfl

@[simp] theorem shift_wants (count : Nat) (failure : Failure) :
    (failure.shift count).wants = failure.wants := rfl

theorem further_shift_eq (used : Nat) (missed : Option Failure) (failure : Failure) :
    (match missed with
      | none => failure.shift used
      | some missed => missed.further (failure.shift used)) =
      (reach used missed).further (failure.shift used) := by
  cases missed with
  | none => simp only [reach, further, shift]; grind
  | some missed => simp only [reach, further, shift]; grind

theorem reach_both (used used' : Nat) (missed missed' : Option Failure) :
    reach (used + used') (further? missed (missed'.map (shift used))) =
      (reach used missed).further ((reach used' missed').shift used) := by
  cases missed with
  | none =>
      cases missed' with
      | none => simp only [reach, further?, further, shift, Option.map]; grind
      | some missed' => simp only [reach, further?, further, shift, Option.map]; grind
  | some missed =>
      cases missed' with
      | none => simp only [reach, further?, further, shift, Option.map]; grind
      | some missed' => simp only [reach, further?, further, shift, Option.map]; grind

theorem reach_zero (failure : Failure) : reach 0 (some failure) = failure := by
  rcases Nat.eq_zero_or_pos failure.place with start | later
  · rw [reach, further_of_eq start.symm]
    simp [← start]
  · exact further_of_lt later

theorem further_shift (used : Nat) (failure : Failure) :
    Failure.further ⟨used, []⟩ (failure.shift used) = failure.shift used := by
  have remembered := congrArg (shift used) (reach_zero failure)
  rw [← remembered]
  simp only [reach, further, shift]
  grind

end Failure

theorem TokenClass.classed_of_has {tokens : TokenClass} {token : Token}
    (member : tokens.Has token) : token.kind = .classed := by
  cases tokens with
  | identifier =>
      obtain ⟨name, rfl⟩ := member
      rfl
  | text =>
      obtain ⟨body, rfl⟩ := member
      rfl
  | type =>
      obtain ⟨type, rfl⟩ := member
      cases type <;> rfl
  | value =>
      rcases member with ⟨name, rfl⟩ | ⟨digits, rfl⟩ | ⟨digits, rfl⟩ | ⟨body, rfl⟩ <;> rfl

theorem TokenClass.exists_has (tokens : TokenClass) : ∃ token, tokens.Has token := by
  cases tokens with
  | identifier => exact ⟨.ident "", "", rfl⟩
  | text => exact ⟨.text "", "", rfl⟩
  | type => exact ⟨.keyword .boolean, .boolean, rfl⟩
  | value => exact ⟨.ident "", .inl ⟨"", rfl⟩⟩

theorem TokenClass.eq_of_has {left right : TokenClass}
    (same : ∀ token, left.Has token ↔ right.Has token) : left = right := by
  have name := same (.ident "")
  have number := same (.int "")
  have text := same (.text "")
  have type := same (.keyword .boolean)
  have isType : ∃ type : ValueType, ValueType.boolean = type := ⟨.boolean, rfl⟩
  cases left <;> cases right <;> simp_all [TokenClass.Has]

namespace Listed

variable {language : Language Value} {language' : Language Value'}
  {word rest word' rest' : List Token} {wants wants' : List Want}

theorem class_has {tokens : TokenClass} {token : Token} (listed : Listed language word rest wants)
    (member : .oneOf tokens ∈ wants) (sought : language.Sought word rest token)
    (classed : token.kind = .classed) : tokens.Has token := by
  obtain ⟨want, wanted, admits⟩ := (listed.tokens token).2 sought
  cases want with
  | token other =>
      have same : token = other := admits
      exact absurd (same ▸ classed) (listed.fixed other wanted)
  | endOfInput => exact admits.elim
  | oneOf other => exact listed.classes tokens other member wanted ▸ admits

theorem class_eq {left right : TokenClass} (listed : Listed language word rest wants)
    (listed' : Listed language' word' rest' wants')
    (same : ∀ token, language.Sought word rest token ↔ language'.Sought word' rest' token)
    (member : .oneOf left ∈ wants) (member' : .oneOf right ∈ wants') : left = right := by
  apply TokenClass.eq_of_has
  intro token
  constructor
  · intro has
    have sought := (listed.tokens token).1 ⟨_, member, has⟩
    exact listed'.class_has member' ((same token).1 sought) (TokenClass.classed_of_has has)
  · intro has
    have sought := (listed'.tokens token).1 ⟨_, member', has⟩
    exact listed.class_has member ((same token).2 sought) (TokenClass.classed_of_has has)

/-- What is looked for by two languages, each at a place of its own, is looked for at a third place
if all that goes on there goes on at one of the two. -/
theorem append {Whole : Type} {whole : Language Whole} {front back : List Token}
    (listed : Listed language word rest wants) (listed' : Listed language' word' rest' wants')
    (tokens : ∀ token, whole.Sought front back token ↔
      language.Sought word rest token ∨ language'.Sought word' rest' token)
    (ending : Blocked front back ↔ Blocked word rest ∨ Blocked word' rest')
    (same : ∀ left right, .oneOf left ∈ wants → .oneOf right ∈ wants' → left = right) :
    Listed whole front back (wants ++ wants') where
  tokens := by
    intro token
    rw [tokens, ← listed.tokens token, ← listed'.tokens token]
    simp only [List.mem_append, or_and_right, exists_or]
  ending := by rw [List.mem_append, listed.ending, listed'.ending, ending]
  fixed := by
    intro token member
    exact (List.mem_append.1 member).elim (listed.fixed token) (listed'.fixed token)
  classes := by
    intro left right member member'
    rcases List.mem_append.1 member with inFirst | inSecond
    · rcases List.mem_append.1 member' with inFirst' | inSecond'
      · exact listed.classes left right inFirst inFirst'
      · exact same left right inFirst inSecond'
    · rcases List.mem_append.1 member' with inFirst' | inSecond'
      · exact (same right left inFirst' inSecond).symm
      · exact listed'.classes left right inSecond inSecond'

end Listed

/-- Every way to go on from behind `front` goes through the seam between `front` and `back`, but for
what a guard in front of a brace would have allowed. -/
structure Seam (first : Language Value) (second : Language Value') (front back : List Token) :
    Prop where
  onward : ∀ word rest token, front ++ back = word ++ rest → front.length ≤ word.length →
    (first.both second).Viable (word ++ [token]) →
    first.Viable (word ++ [token]) ∨
      (∃ spill, word = front ++ spill ∧ second.Viable (spill ++ [token])) ∨
      BehindGuard word ∧ (token = .mark .openBrace ↔ rest.head? ≠ some (.mark .openBrace))
  clear : ∀ spill rest, back = spill ++ rest → spill ≠ [] → second.Viable spill →
    (¬ first.Viable (front ++ spill) ∨ ∃ value, second spill value) →
    BehindGuard (front ++ spill) → BehindGuard spill
  tie : ∀ spill rest, back = spill ++ rest → spill ≠ [] → first.Viable (front ++ spill) →
    second.Viable spill →
    (∀ token after, rest = token :: after →
      ¬ first.Viable (front ++ spill ++ [token]) ∧ ¬ second.Viable (spill ++ [token])) →
    ¬ BehindGuard (front ++ spill) ∧
      ∀ token, first.Viable (front ++ spill ++ [token]) ↔ second.Viable (spill ++ [token])
  apart : ∀ token token', first.Viable (front ++ [token]) → second.Viable [token'] →
    ¬ (token.kind = .classed ∧ token'.kind = .classed)
  brace : BehindGuard front → ¬ second.Viable [.mark .openBrace]
  word : ∀ left right rest value value', front ++ back = left ++ right ++ rest →
    first left value → second right value' →
    left = front ∨ right = [] ∧ (left.length < front.length ∨
      Blocked left rest ∧ ∀ spill value', left = front ++ spill → ¬ second spill value')

namespace Seam

variable {first : Language Value} {second : Language Value'} {front back spill rest : List Token}
  {value : Value} {token : Token} {wants : List Want}

theorem onward_behind (seam : Seam first second front back) (split : back = spill ++ rest)
    (viable : (first.both second).Viable (front ++ spill ++ [token])) :
    first.Viable (front ++ spill ++ [token]) ∨ second.Viable (spill ++ [token]) ∨
      BehindGuard (front ++ spill) ∧
        (token = .mark .openBrace ↔ rest.head? ≠ some (.mark .openBrace)) := by
  have whole : front ++ back = front ++ spill ++ rest := by rw [split, List.append_assoc]
  rcases seam.onward _ _ token whole (by simp) viable with inFirst | ⟨other, same, inSecond⟩ | odd
  · exact .inl inFirst
  · rw [List.append_cancel_left same]
    exact .inr (.inl inSecond)
  · exact .inr (.inr odd)

theorem sought_iff (seam : Seam first second front back) (holds : first front value)
    (inhabited : second.Inhabited) (split : back = spill ++ rest) :
    (first.both second).Sought (front ++ spill) rest token ↔
      (first.Viable (front ++ spill ++ [token]) ∨ second.Viable (spill ++ [token])) ∧
        (BehindGuard (front ++ spill) →
          token ≠ .mark .openBrace ∧ rest.head? ≠ some (.mark .openBrace)) := by
  constructor
  · rintro ⟨viable, allowed⟩
    rcases seam.onward_behind split viable with inFirst | inSecond | ⟨here, odd⟩
    · exact ⟨.inl inFirst, allowed⟩
    · exact ⟨.inr inSecond, allowed⟩
    · exact absurd (odd.2 (allowed here).2) (allowed here).1
  · rintro ⟨inFirst | inSecond, allowed⟩
    · exact ⟨Language.viable_both_of_first inFirst inhabited, allowed⟩
    · refine ⟨?_, allowed⟩
      rw [List.append_assoc]
      exact Language.viable_both_of_second holds inSecond

/-- The sequence goes no further where neither language does. -/
theorem furthest (seam : Seam first second front back) (split : back = spill ++ rest)
    (viable : (first.both second).Viable (front ++ spill))
    (stuck : ∀ token after, rest = token :: after →
      ¬ first.Viable (front ++ spill ++ [token]) ∧ ¬ second.Viable (spill ++ [token]))
    (listed : Listed (first.both second) (front ++ spill) rest wants) :
    Furthest (first.both second) (front ++ back) ⟨(front ++ spill).length, wants⟩ := by
  refine ⟨front ++ spill, rest, by rw [split, List.append_assoc], rfl, viable, ?_, listed⟩
  rintro token after rfl goesOn
  rcases seam.onward_behind split goesOn with inFirst | inSecond | ⟨-, odd⟩
  · exact (stuck token after rfl).1 inFirst
  · exact (stuck token after rfl).2 inSecond
  · simp at odd

end Seam

namespace Furthest

variable {first : Language Value} {second : Language Value'} {front back : List Token}
  {value : Value} {left right : Failure}

private theorem second_further {word rest word' rest' : List Token} {wants : List Want}
    (holds : first front value) (seam : Seam first second front back)
    (split : front ++ back = word ++ rest)
    (stuck : ∀ token after, rest = token :: after → ¬ first.Viable (word ++ [token]))
    (split' : back = word' ++ rest') (viable' : second.Viable word')
    (stuck' : ∀ token after, rest' = token :: after → ¬ second.Viable (word' ++ [token]))
    (listed' : Listed second word' rest' wants)
    (later : word.length < (front ++ word').length) (reached : front.length ≤ word.length) :
    Furthest (first.both second) (front ++ back) ⟨(front ++ word').length, wants⟩ := by
  have whole : front ++ back = (front ++ word') ++ rest' := by rw [split', List.append_assoc]
  have beyond : ¬ first.Viable (front ++ word') :=
    Language.not_viable_past (split.symm.trans whole) stuck later
  have beyond' : ∀ token, ¬ first.Viable (front ++ word' ++ [token]) :=
    fun token viable => beyond viable.of_append
  have filled : word' ≠ [] := by
    rintro rfl
    rw [List.append_nil] at later
    omega
  have behind : BehindGuard (front ++ word') ↔ BehindGuard word' :=
    ⟨seam.clear word' rest' split' filled viable' (.inl beyond), fun here => here.append front⟩
  refine seam.furthest split' (Language.viable_both_of_second holds viable')
    (fun token after same => ⟨beyond' token, stuck' token after same⟩)
    ⟨fun token => ?_, ?_, listed'.fixed, listed'.classes⟩
  · rw [listed'.tokens token, seam.sought_iff holds viable'.inhabited split',
      or_iff_right (beyond' token), behind]
    exact Iff.rfl
  · rw [listed'.ending]
    exact and_congr_left fun _ => behind.symm

private theorem first_further {spill rest word' rest' : List Token} {wants : List Want}
    (holds : first front value) (seam : Seam first second front back)
    (inhabited : second.Inhabited) (split : back = spill ++ rest)
    (viable : first.Viable (front ++ spill))
    (stuck : ∀ token after, rest = token :: after → ¬ first.Viable (front ++ spill ++ [token]))
    (listed : Listed first (front ++ spill) rest wants)
    (split' : back = word' ++ rest')
    (stuck' : ∀ token after, rest' = token :: after → ¬ second.Viable (word' ++ [token]))
    (later : word'.length < spill.length) :
    Furthest (first.both second) (front ++ back) ⟨(front ++ spill).length, wants⟩ := by
  have beyond : ∀ token, ¬ second.Viable (spill ++ [token]) := fun token viable =>
    Language.not_viable_past (split'.symm.trans split) stuck' later viable.of_append
  refine seam.furthest split (Language.viable_both_of_first viable inhabited)
    (fun token after same => ⟨stuck token after same, beyond token⟩)
    ⟨fun token => ?_, listed.ending, listed.fixed, listed.classes⟩
  rw [listed.tokens token, seam.sought_iff holds inhabited split, or_iff_left (beyond token)]
  exact Iff.rfl

/-- Both languages look for one class of tokens at most, and for the same one. -/
private theorem same_class {spill rest : List Token} {wants wants' : List Want}
    (seam : Seam first second front back)
    (tie : spill ≠ [] → ¬ BehindGuard (front ++ spill) ∧
      ∀ token, first.Viable (front ++ spill ++ [token]) ↔ second.Viable (spill ++ [token]))
    (listed : Listed first (front ++ spill) rest wants) (listed' : Listed second spill rest wants')
    {left right : TokenClass} (member : .oneOf left ∈ wants) (member' : .oneOf right ∈ wants') :
    left = right := by
  by_cases empty : spill = []
  · subst empty
    obtain ⟨token, has⟩ := left.exists_has
    obtain ⟨token', has'⟩ := right.exists_has
    have sought := (listed.tokens token).1 ⟨_, member, has⟩
    have sought' := (listed'.tokens token').1 ⟨_, member', has'⟩
    rw [List.append_nil] at sought
    exact absurd ⟨TokenClass.classed_of_has has, TokenClass.classed_of_has has'⟩
      (seam.apart token token' sought.1 sought'.1)
  · obtain ⟨notBehind, same⟩ := tie empty
    have notBehind' : ¬ BehindGuard spill := fun here => notBehind (here.append front)
    apply listed.class_eq listed' _ member member'
    intro token
    simp only [Language.Sought, notBehind, notBehind', same token]

/-- Neither language goes on, and what either looked for is looked for at the seam. -/
private theorem tied {spill rest : List Token} {wants wants' : List Want}
    (holds : first front value) (seam : Seam first second front back)
    (free : ¬ Blocked front back) (split : back = spill ++ rest)
    (viable : first.Viable (front ++ spill))
    (stuck : ∀ token after, rest = token :: after → ¬ first.Viable (front ++ spill ++ [token]))
    (listed : Listed first (front ++ spill) rest wants) (viable' : second.Viable spill)
    (stuck' : ∀ token after, rest = token :: after → ¬ second.Viable (spill ++ [token]))
    (listed' : Listed second spill rest wants') :
    Furthest (first.both second) (front ++ back) ⟨(front ++ spill).length, wants ++ wants'⟩ := by
  have stuckBoth := fun token after same =>
    And.intro (stuck token after same) (stuck' token after same)
  have tie := fun filled => seam.tie spill rest split filled viable viable' stuckBoth
  have unblocked : ¬ Blocked (front ++ spill) rest := by
    by_cases empty : spill = []
    · subst empty
      rw [List.nil_append] at split
      rwa [List.append_nil, ← split]
    · exact fun blocked => (tie empty).1 blocked.1
  have unblocked' : ¬ Blocked spill rest := fun blocked => unblocked (blocked.append front)
  have sought' : ∀ token, second.Viable (spill ++ [token]) ∧ (BehindGuard (front ++ spill) →
      token ≠ .mark .openBrace ∧ rest.head? ≠ some (.mark .openBrace)) ↔
        second.Sought spill rest token := by
    intro token
    refine and_congr_right fun inSecond => ⟨fun allowed here => allowed (here.append front),
      fun _ here => ⟨?_, fun braced => unblocked ⟨here, braced⟩⟩⟩
    rintro rfl
    by_cases empty : spill = []
    · subst empty
      rw [List.append_nil] at here
      exact seam.brace here inSecond
    · exact (tie empty).1 here
  refine seam.furthest split (Language.viable_both_of_first viable viable'.inhabited) stuckBoth
    (listed.append listed' (fun token => ?_) ?_ fun _ _ => same_class seam tie listed listed')
  · rw [seam.sought_iff holds viable'.inhabited split, or_and_right, sought' token]
    exact Iff.rfl
  · exact ⟨fun blocked => absurd blocked unblocked,
      fun blocked => absurd blocked (not_or.2 ⟨unblocked, unblocked'⟩)⟩

theorem both (holds : first front value) (seam : Seam first second front back)
    (free : ¬ Blocked front back) (reached : front.length ≤ left.place)
    (furthest : Furthest first (front ++ back) left) (furthest' : Furthest second back right) :
    Furthest (first.both second) (front ++ back) (left.further (right.shift front.length)) := by
  obtain ⟨word, rest, split, place, viable, stuck, listed⟩ := furthest
  obtain ⟨word', rest', split', place', viable', stuck', listed'⟩ := furthest'
  rw [place] at reached
  obtain ⟨spill, rfl, same⟩ : ∃ spill, word = front ++ spill ∧ back = spill ++ rest := by
    rcases List.append_eq_append_iff.1 split with ⟨spill, same, same'⟩ | ⟨spill, same, same'⟩
    · exact ⟨spill, same, same'⟩
    · have short := congrArg List.length same
      rw [List.length_append] at short
      have none := List.length_eq_zero_iff.1 (show spill.length = 0 by omega)
      subst none
      exact ⟨[], by simpa using same.symm, by simpa using same'.symm⟩
  have rightPlace : (right.shift front.length).place = (front ++ word').length := by
    rw [Failure.shift_place, place', List.length_append]
  rcases Nat.lt_trichotomy spill.length word'.length with before | level | after
  · have later : (front ++ spill).length < (front ++ word').length := by
      simp only [List.length_append]
      omega
    rw [Failure.further_of_lt (by rw [place, rightPlace]; exact later)]
    have result := second_further holds seam split stuck split' viable' stuck' listed' later reached
    rwa [← rightPlace] at result
  · have sameWord : word' = spill := List.append_inj_left (split'.symm.trans same) level.symm
    subst sameWord
    have sameRest : rest = rest' := List.append_cancel_left (same.symm.trans split')
    subst sameRest
    rw [Failure.further_of_eq (by rw [place, rightPlace])]
    have result := tied holds seam free same viable stuck listed viable' stuck' listed'
    rwa [← place] at result
  · rw [Failure.further_of_gt (by rw [place, rightPlace]; simp only [List.length_append]; omega)]
    have result :=
      first_further holds seam viable'.inhabited same viable stuck listed split' stuck' after
    rwa [← place] at result

theorem both_of_first {tokens : List Token}
    (none : ∀ word rest value, tokens = word ++ rest → ¬ first word value)
    (inhabited : second.Inhabited) (furthest : Furthest first tokens left) :
    Furthest (first.both second) tokens left := by
  obtain ⟨word, rest, rfl, place, viable, stuck, listed⟩ := furthest
  have onward : ∀ token, (first.both second).Viable (word ++ [token]) ↔
      first.Viable (word ++ [token]) := by
    intro token
    refine ⟨fun viable => ?_, fun viable => Language.viable_both_of_first viable inhabited⟩
    rcases viable.of_both_snoc with inFirst | ⟨front, back, value, rfl, holds, -⟩
    · exact inFirst
    · exact absurd holds (none front (back ++ rest) value (List.append_assoc _ _ _))
  refine ⟨word, rest, rfl, place, Language.viable_both_of_first viable inhabited, ?_, ?_,
    listed.ending, listed.fixed, listed.classes⟩
  · intro token after same viable
    exact stuck token after same ((onward token).1 viable)
  · intro token
    rw [listed.tokens token]
    exact and_congr_left fun _ => (onward token).symm

end Furthest

namespace Seam

variable {first : Language Value} {second : Language Value'} {front back front' back' : List Token}
  {value : Value} {value' : Value'}

private theorem free_of_parts (seam : Seam first second front (front' ++ back'))
    (holds' : second front' value') (free : ¬ Blocked front (front' ++ back'))
    (free' : ¬ Blocked front' back') : ¬ Blocked (front ++ front') back' := by
  intro blocked
  by_cases empty : front' = []
  · subst empty
    rw [List.append_nil] at blocked
    exact free blocked
  · apply free'
    refine ⟨?_, blocked.2⟩
    exact seam.clear front' back' rfl empty (Language.viable_of_word holds') (.inr ⟨value', holds'⟩)
      blocked.1

private theorem longest_of_parts (seam : Seam first second front (front' ++ back'))
    (longest' : ∀ word rest value, front' ++ back' = word ++ rest → second word value →
      word.length ≤ front'.length ∨ Blocked word rest)
    {word rest : List Token} {pair : Value × Value'}
    (split : front ++ (front' ++ back') = word ++ rest)
    (holds : (first.both second) word pair) :
    word.length ≤ (front ++ front').length ∨ Blocked word rest := by
  obtain ⟨left, right, rfl, holdsLeft, holdsRight⟩ := holds
  rcases seam.word left right rest _ _ split holdsLeft holdsRight with
    rfl | ⟨rfl, shorter | ⟨blocked, -⟩⟩
  · rw [List.append_assoc] at split
    have split' := List.append_cancel_left split
    rcases longest' right rest _ split' holdsRight with shorter | blocked
    · left
      simp only [List.length_append]
      omega
    · exact .inr (blocked.append left)
  · left
    simp only [List.length_append, List.length_nil]
    omega
  · right
    rwa [List.append_nil]

private theorem only_of_parts (seam : Seam first second front (front' ++ back'))
    (holds' : second front' value') (only : ∀ other, first front other → other = value)
    (only' : ∀ other, second front' other → other = value') {pair : Value × Value'}
    (holds : (first.both second) (front ++ front') pair) : pair = (value, value') := by
  obtain ⟨left, right, same, holdsLeft, holdsRight⟩ := holds
  have split : front ++ (front' ++ back') = left ++ right ++ back' := by
    rw [← List.append_assoc, same]
  rcases seam.word left right back' _ _ split holdsLeft holdsRight with
    rfl | ⟨rfl, shorter | ⟨-, apart⟩⟩
  · have sameRight := List.append_cancel_left same
    subst sameRight
    exact Prod.ext (only _ holdsLeft) (only' _ holdsRight)
  · have lengths := congrArg List.length same
    simp only [List.length_append, List.length_nil] at lengths
    omega
  · exact absurd holds' (apart front' value' (by simpa using same.symm))

end Seam

theorem Reads.both {first : Language Value} {second : Language Value'} {rule : Rule Value}
    {rule' : Rule Value'} {tokens : List Token} (inhabited : second.Inhabited)
    (reads : Reads first tokens (rule tokens))
    (reads' : ∀ front back value, tokens = front ++ back → first front value →
      Reads second back (rule' back))
    (seam : ∀ front back value, tokens = front ++ back → first front value →
      ¬ Blocked front back →
      (∀ word rest value', tokens = word ++ rest → first word value' →
        word.length ≤ front.length ∨ Blocked word rest) →
      Seam first second front back) :
    Reads (first.both second) tokens ((rule.both rule') tokens) := by
  unfold Rule.both
  generalize rule tokens = outcome at reads
  cases reads with
  | fail none furthest =>
      refine .fail ?_ (furthest.both_of_first none inhabited)
      rintro word rest pair rfl ⟨front, back, rfl, holds, -⟩
      exact none front (back ++ rest) pair.1 (List.append_assoc _ _ _) holds
  | @ok front back value missed split holds free longest only furthest =>
      subst split
      have sound := seam front back value rfl holds free longest
      have reached := Failure.le_reach_place front.length missed
      have reads' := reads' front back value rfl holds
      dsimp only
      rw [List.drop_left]
      generalize rule' back = outcome at reads'
      cases reads' with
      | @fail failure none furthest' =>
          have combined := furthest.both holds sound free reached furthest'
          rw [← Failure.further_shift_eq] at combined
          refine .fail ?_ combined
          rintro word rest pair split ⟨left, right, rfl, holdsLeft, holdsRight⟩
          rcases sound.word left right rest _ _ split holdsLeft holdsRight with rfl | ⟨rfl, -⟩
          · rw [List.append_assoc] at split
            exact none right rest pair.2 (List.append_cancel_left split) holdsRight
          · exact none [] back pair.2 rfl holdsRight
      | @ok front' back' value' missed' split holds' free' longest' only' furthest' =>
          subst split
          dsimp only
          rw [← List.length_append]
          have combined : Furthest (first.both second) (front ++ (front' ++ back'))
              (Failure.reach (front ++ front').length
                (Failure.further? missed (missed'.map (Failure.shift front.length)))) := by
            rw [List.length_append, Failure.reach_both]
            exact furthest.both holds sound free reached furthest'
          exact .ok (List.append_assoc _ _ _).symm ⟨front, front', rfl, holds, holds'⟩
            (sound.free_of_parts holds' free free')
            (fun _ _ _ split => sound.longest_of_parts longest' split)
            (fun _ => sound.only_of_parts holds' only only') combined

/-- What may come after a word of the first language does not begin a word of the second, and no
guard stands astride the two. -/
structure Follows (first : Language Value) (second : Language Value') : Prop where
  apart : ∀ word value token token', first word value → first.Viable (word ++ [token]) →
    second.Viable [token'] → token.kind ≠ token'.kind
  clear : ∀ word value spill, first word value → second.Viable spill → spill ≠ [] →
    BehindGuard (word ++ spill) → BehindGuard spill
  brace : ∀ word value, first word value → BehindGuard word →
    ¬ second.Viable [.mark .openBrace]

theorem Blocked.eq_nil {second : Language Value'} {word right rest : List Token}
    (blocked : Blocked word (right ++ rest)) (noBrace : ¬ second.Viable [.mark .openBrace])
    (viable : second.Viable right) : right = [] := by
  rcases right with _ | ⟨token, right⟩
  · rfl
  · have braced : token = .mark .openBrace := by simpa using blocked.2
    rw [braced] at viable
    have parts : second.Viable ([.mark .openBrace] ++ right) := viable
    exact absurd parts.of_append noBrace

/-- Behind a guard that a brace blocks, only another token than that brace can be what was looked
for. -/
theorem Blocked.odd {second : Language Value'} {word rest : List Token} {token : Token}
    (blocked : Blocked word rest) (noBrace : ¬ second.Viable [.mark .openBrace])
    (viable : second.Viable [token]) :
    BehindGuard word ∧ (token = .mark .openBrace ↔ rest.head? ≠ some (.mark .openBrace)) := by
  have different : token ≠ .mark .openBrace := by
    rintro rfl
    exact noBrace viable
  refine ⟨blocked.1, fun same => absurd same different, fun other => absurd blocked.2 other⟩

/-- A word that is longer than the one that was read is blocked. -/
theorem blocked_of_longer {first : Language Value} {front back spill rest : List Token}
    {item : Token} {value : Value}
    (longest : ∀ word rest value', front ++ back = word ++ rest → first word value' →
      word.length ≤ front.length ∨ Blocked word rest)
    (split : front ++ back = front ++ item :: spill ++ rest)
    (holds : first (front ++ item :: spill) value) : Blocked (front ++ item :: spill) rest := by
  apply (longest _ _ value split holds).resolve_left
  simp only [List.length_append, List.length_cons]
  omega

namespace Follows

variable {first : Language Value} {second : Language Value'} {front back : List Token}
  {value : Value}

/-- A word of the first language that goes on does not go on with the second. -/
theorem not_viable (follows : Follows first second) {word spill : List Token} {token : Token}
    (holds : first word value) (viable : first.Viable (word ++ token :: spill))
    {rest : List Token} : ¬ second.Viable (token :: rest) := by
  intro viable'
  have inFirst : first.Viable (word ++ [token] ++ spill) := by simpa using viable
  have inSecond : second.Viable ([token] ++ rest) := viable'
  exact follows.apart word value token token holds inFirst.of_append inSecond.of_append rfl

theorem onward (follows : Follows first second) (holds : first front value)
    (longest : ∀ word rest value', front ++ back = word ++ rest → first word value' →
      word.length ≤ front.length ∨ Blocked word rest)
    {word rest : List Token} {token : Token} (split : front ++ back = word ++ rest)
    (reached : front.length ≤ word.length) (viable : (first.both second).Viable (word ++ [token])) :
    first.Viable (word ++ [token]) ∨
      (∃ spill, word = front ++ spill ∧ second.Viable (spill ++ [token])) ∨
      BehindGuard word ∧ (token = .mark .openBrace ↔ rest.head? ≠ some (.mark .openBrace)) := by
  rcases viable.of_both_snoc with inFirst | ⟨left, right, value', rfl, holds', inSecond⟩
  · exact .inl inFirst
  have split' : left ++ (right ++ rest) = front ++ back := by rw [split, List.append_assoc]
  rcases append_compare split' with ⟨item, spill, rfl, same'⟩ | ⟨spill, rfl, same'⟩
  · rcases right with _ | ⟨other, right⟩
    · simp only [List.append_nil, List.length_append, List.length_cons] at reached
      omega
    · obtain rfl : other = item := (List.cons.inj same').1
      exact absurd inSecond (follows.not_viable holds' (Language.viable_of_word holds))
  · rcases spill with _ | ⟨item, spill⟩
    · exact .inr (.inl ⟨right, by simp, inSecond⟩)
    · have blocked := blocked_of_longer longest split'.symm holds'
      have noBrace := follows.brace _ value' holds' blocked.1
      obtain rfl := blocked.eq_nil noBrace inSecond.of_append
      rw [List.append_nil]
      exact .inr (.inr (blocked.odd noBrace inSecond))

theorem word (follows : Follows first second) (holds : first front value)
    (longest : ∀ word rest value', front ++ back = word ++ rest → first word value' →
      word.length ≤ front.length ∨ Blocked word rest)
    {left right rest : List Token} {value' : Value} {other : Value'}
    (split : front ++ back = left ++ right ++ rest) (holds' : first left value')
    (holdsRight : second right other) :
    left = front ∨ right = [] ∧ (left.length < front.length ∨
      Blocked left rest ∧ ∀ spill other, left = front ++ spill → ¬ second spill other) := by
  rw [List.append_assoc] at split
  rcases append_compare split.symm with ⟨item, spill, rfl, same⟩ | ⟨spill, rfl, same⟩
  · rcases right with _ | ⟨token, right⟩
    · refine .inr ⟨rfl, .inl ?_⟩
      simp only [List.length_append, List.length_cons]
      omega
    · obtain rfl : token = item := (List.cons.inj same).1
      exact absurd (Language.viable_of_word holdsRight)
        (follows.not_viable holds' (Language.viable_of_word holds))
  · rcases spill with _ | ⟨item, spill⟩
    · exact .inl (List.append_nil _)
    · have blocked := blocked_of_longer longest split holds'
      obtain rfl := blocked.eq_nil (follows.brace _ value' holds' blocked.1)
        (Language.viable_of_word holdsRight)
      refine .inr ⟨rfl, .inr ⟨blocked, ?_⟩⟩
      intro spill' value'' same holdsOver
      rw [← List.append_cancel_left same] at holdsOver
      exact follows.not_viable holds (Language.viable_of_word holds')
        (Language.viable_of_word holdsOver)

theorem seam (follows : Follows first second) (holds : first front value)
    (longest : ∀ word rest value', front ++ back = word ++ rest → first word value' →
      word.length ≤ front.length ∨ Blocked word rest) :
    Seam first second front back where
  onward _ _ _ := follows.onward holds longest
  clear := by
    intro spill rest split filled viable _ behind
    exact follows.clear front value spill holds viable filled behind
  tie := by
    intro spill rest split filled viable viable'
    obtain ⟨item, spill, rfl⟩ := List.exists_cons_of_ne_nil filled
    exact absurd viable' (follows.not_viable holds viable)
  apart := by
    rintro token token' viable viable' ⟨classed, classed'⟩
    exact follows.apart front value token token' holds viable viable' (classed.trans classed'.symm)
  brace := follows.brace front value holds
  word _ _ _ _ _ := follows.word holds longest

end Follows

theorem Reads.both_of_follows {first : Language Value} {second : Language Value'}
    {rule : Rule Value} {rule' : Rule Value'} {tokens : List Token} (inhabited : second.Inhabited)
    (follows : Follows first second) (reads : Reads first tokens (rule tokens))
    (reads' : ∀ front back value, tokens = front ++ back → first front value →
      Reads second back (rule' back)) :
    Reads (first.both second) tokens ((rule.both rule') tokens) := by
  apply reads.both inhabited reads'
  rintro front back value rfl holds - longest
  exact follows.seam holds longest

end KernelMenu.Grammar

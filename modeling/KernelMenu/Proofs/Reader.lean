import KernelMenu.Grammar.Expr
import KernelMenu.Proofs.Combinator

/-!
A rule together with the language that it reads and the shape of that language, and how the three
are built up at once.
-/

namespace KernelMenu.Grammar

variable {Value Value' : Type}

/-- The rule reads the language from fewer than `bound` tokens, and the language has the shape. -/
structure Reader (bound : Nat) (rule : Rule Value) (language : Language Value) (shape : Shape) :
    Prop where
  reads : ReadsBelow bound rule language
  shaped : Shaped language shape

namespace Reader

variable {bound : Nat} {rule : Rule Value} {rule' : Rule Value'} {language : Language Value}
  {language' : Language Value'} {shape shape' : Shape}

theorem mono {less : Nat} (reader : Reader bound rule language shape) (fewer : less ≤ bound) :
    Reader less rule language shape where
  reads tokens short := reader.reads tokens (Nat.lt_of_lt_of_le short fewer)
  shaped := reader.shaped

theorem congr {other : Language Value} (reader : Reader bound rule language shape)
    (same : ∀ word value, other word value ↔ language word value) :
    Reader bound rule other shape := by
  rwa [Language.same same]

theorem map (reader : Reader bound rule language shape) (change : Value → Value') :
    Reader bound (rule.map change) (language.map change) shape where
  reads tokens short := (reader.reads tokens short).map
  shaped := reader.shaped.map

theorem both_of_follows (reader : Reader bound rule language shape)
    (reader' : Reader bound rule' language' shape') (follows : Follows language language') :
    Reader bound (rule.both rule') (language.both language') (shape.both shape') where
  reads tokens short := by
    apply (reader.reads tokens short).both_of_follows reader'.shaped.inhabited follows
    rintro front back value rfl holds
    refine reader'.reads back (Nat.lt_of_le_of_lt ?_ short)
    simp
  shaped := reader.shaped.both reader'.shaped follows

theorem both_of_filled (reader : Reader (bound + 1) rule language shape)
    (filled : shape.empty = false) (reader' : Reader bound rule' language' shape')
    (follows : Follows language language') :
    Reader (bound + 1) (rule.both rule') (language.both language') (shape.both shape') where
  reads tokens short := by
    apply (reader.reads tokens short).both_of_follows reader'.shaped.inhabited follows
    rintro (_ | ⟨token, front⟩) back value rfl holds
    · exact absurd holds (reader.shaped.filled filled value)
    · apply reader'.reads back
      simp only [List.length_append, List.length_cons] at short
      omega
  shaped := reader.shaped.both reader'.shaped follows

theorem both (reader : Reader bound rule language shape)
    (reader' : Reader bound rule' language' shape') (apart : shape.Apart shape')
    (none : shape.guards = false) (none' : shape'.guards = false) :
    Reader bound (rule.both rule') (language.both language') (shape.both shape') :=
  reader.both_of_follows reader' (reader.shaped.follows reader'.shaped apart none none')

theorem optional (reader : Reader bound rule language shape) (filled : shape.empty = false) :
    Reader bound rule.optional (Maybe language) shape.repeated where
  reads tokens short := (reader.reads tokens short).optional (reader.shaped.filled filled)
  shaped := reader.shaped.maybe

theorem many_of_follows (reader : Reader bound rule language shape) (filled : shape.empty = false)
    (follows : Follows language (Star language)) :
    Reader bound rule.many (Star language) shape.repeated where
  reads tokens short := by
    refine Reads.many (reader.shaped.filled filled) follows fun front back same => ?_
    refine reader.reads back (Nat.lt_of_le_of_lt ?_ short)
    simp [same]
  shaped := reader.shaped.star follows filled

theorem many (reader : Reader bound rule language shape) (filled : shape.empty = false)
    (apart : shape.Apart shape) (none : shape.guards = false) :
    Reader bound rule.many (Star language) shape.repeated :=
  reader.many_of_follows filled (reader.shaped.follows_star filled apart none)

section Alternatives

variable {other : Rule Value} {second : Language Value}

theorem alternatives (reader : Reader bound rule language shape)
    (reader' : Reader bound other second shape') (differs : shape.Differs shape')
    (filled : shape.empty = false) (filled' : shape'.empty = false) :
    Alternatives language second where
  apart token token' viable viable' same :=
    differs _ (reader.shaped.first token viable) (same ▸ reader'.shaped.first token' viable')
  filled := reader.shaped.filled filled
  filled' := reader'.shaped.filled filled'

theorem orElse (reader : Reader bound rule language shape)
    (reader' : Reader bound other second shape') (differs : shape.Differs shape')
    (filled : shape.empty = false) (filled' : shape'.empty = false) :
    Reader bound (rule.orElse other) (language.either second) (shape.either shape') where
  reads tokens short := (reader.reads tokens short).orElse
    (reader.alternatives reader' differs filled filled') (reader'.reads tokens short)
  shaped := reader.shaped.either reader'.shaped differs filled filled'

theorem firstOf {rules : List (Rule Value)} (reader : Reader bound rule language shape)
    (reader' : Reader bound (Rule.firstOf other rules) second shape')
    (differs : shape.Differs shape') (filled : shape.empty = false)
    (filled' : shape'.empty = false) :
    Reader bound (Rule.firstOf rule (other :: rules)) (language.either second)
      (shape.either shape') where
  reads tokens short := (reader.reads tokens short).firstOf_cons
    (reader.alternatives reader' differs filled filled') (reader'.reads tokens short)
  shaped := reader.shaped.either reader'.shaped differs filled filled'

end Alternatives

theorem exactly (bound : Nat) {wanted : Token} (fixed : wanted.kind ≠ .classed) :
    Reader bound (Rule.exactly wanted) (Language.token wanted) (.one wanted.kind) where
  reads tokens _ := by
    refine Reads.one (.token wanted) ?_ ⟨wanted, rfl⟩ ?_ ?_ ?_ rfl
    · intro token
      by_cases same : token = wanted <;> simp [Want.Admits, same]
    · rintro token ⟨⟩
      exact fixed
    · intro token rest value found
      by_cases same : token = wanted
      · obtain rfl : token = value := by simpa [same] using found
        simp [Rule.exactly, same]
      · simp [same] at found
    · intro token rest missed
      by_cases same : token = wanted
      · simp [same] at missed
      · simp [Rule.exactly, same]
  shaped := by
    apply Shaped.one (show _ = some wanted from if_pos (rfl : wanted = wanted))
    intro token value found
    by_cases same : token = wanted
    · rw [same]
    · simp [same] at found

theorem classified (bound : Nat) {tokens : TokenClass} {meaning : Token → Option Value}
    (has : ∀ token, tokens.Has token ↔ (meaning token).isSome)
    (same : ∀ word value, language word value ↔ Language.one meaning word value) :
    Reader bound (Rule.classified tokens meaning) language (.one .classed) where
  reads list _ := by
    rw [Language.same same]
    refine Reads.one (.oneOf tokens) has tokens.exists_has nofun ?_ ?_ rfl
    · intro token rest value found
      simp [Rule.classified, found]
    · intro token rest missed
      simp [Rule.classified, missed]
  shaped := by
    rw [Language.same same]
    obtain ⟨token, member⟩ := tokens.exists_has
    obtain ⟨value, found⟩ := Option.isSome_iff_exists.1 ((has token).1 member)
    refine Shaped.one found fun other value found => ?_
    exact TokenClass.classed_of_has ((has other).2 (Option.isSome_iff_exists.2 ⟨value, found⟩))

theorem enclosed (opening closing : Mark) (reader : Reader bound rule language shape)
    (opens : Follows (Language.token (.mark opening)) language)
    (closes : Follows ((Language.token (.mark opening)).before language)
      (Language.token (.mark closing))) :
    Reader (bound + 1) (Grammar.enclosed opening closing rule) (language.enclosed opening closing)
      (((Shape.one (.mark opening)).both shape).both (.one (.mark closing))) := by
  have first := exactly (bound + 1) (show (Token.mark opening).kind ≠ .classed from nofun)
  have last := exactly (bound + 1) (show (Token.mark closing).kind ≠ .classed from nofun)
  have opened := (first.both_of_filled rfl reader opens).map Prod.snd
  exact (opened.both_of_follows last closes).map Prod.fst

theorem enclosed_of_apart (opening closing : Mark) (reader : Reader bound rule language shape)
    (none : shape.guards = false) (apart : .mark closing ∉ shape.nexts) :
    Reader (bound + 1) (Grammar.enclosed opening closing rule) (language.enclosed opening closing)
      (((Shape.one (.mark opening)).both shape).both (.one (.mark closing))) := by
  have first := (exactly 0 (show (Token.mark opening).kind ≠ .classed from nofun)).shaped
  have last := (exactly 0 (show (Token.mark closing).kind ≠ .classed from nofun)).shaped
  have opens := first.follows reader.shaped nofun rfl none
  refine reader.enclosed opening closing opens ((first.both reader.shaped opens).map.follows last
    (Shape.apart_closing apart) ?_ rfl)
  simp [Shape.both, Shape.one, Token.kind, none]

end Reader

end KernelMenu.Grammar

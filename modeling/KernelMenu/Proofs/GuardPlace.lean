import KernelMenu.Proofs.Balance

/-!
Where a guard can stand. The keyword of a guard occurs in it once, and never in a payload, so there
is one way at most to see a guard at the end of a list. What follows a clause does not begin like
the rest of a payload; then a guard that ends behind it stands in it as a whole, or is all of it.
-/

namespace KernelMenu.Grammar

open KernelMenu.Grammar.Language

variable {Value Value' : Type}

/-- The tokens end with the payload of a property. -/
def BehindPayload (word : List Token) : Prop :=
  ∃ before name payload, Phrase.Payload name payload ∧ word = before ++ .keyword name :: payload

theorem BehindPayload.append {word : List Token} (behind : BehindPayload word)
    (front : List Token) : BehindPayload (front ++ word) := by
  obtain ⟨before, name, payload, holds, rfl⟩ := behind
  exact ⟨front ++ before, name, payload, holds, (List.append_assoc _ _ _).symm⟩

theorem BehindPayload.guard {word guard : List Token} {condition : Expr}
    (behind : BehindPayload word) (holds : Phrase.Guard guard condition) :
    BehindGuard (word ++ guard) := by
  obtain ⟨before, name, payload, wellFormed, rfl⟩ := behind
  exact ⟨before, name, payload, guard, condition, wellFormed, holds, by simp⟩

namespace Phrase

def payloadKinds : List Kind := .keyword .on :: bracketedKinds

theorem payload_within {name : Keyword} {payload : List Token} (holds : Payload name payload) :
    Within payloadKinds payload := by
  cases holds with
  | prompt | select | env => exact .cons (List.mem_of_elem_eq_true rfl) nofun
  | depends holds =>
      exact .cons (by decide) ((bracketed_within holds).mono (List.subset_cons_self _ _))
  | default holds => exact (bracketed_within holds).mono (List.subset_cons_self _ _)
  | range low high =>
      obtain ⟨least, rfl, least'⟩ := low.exists_token
      obtain ⟨most, rfl, most'⟩ := high.exists_token
      refine .cons (by decide) (.cons ?_ (.cons ?_ (.cons (by decide) nofun)))
      · rw [least']
        decide
      · rw [most']
        decide

def nameKinds : List Kind :=
  [.keyword .prompt, .keyword .depends, .keyword .default, .keyword .range, .keyword .select,
    .keyword .env]

theorem payload_name {name : Keyword} {payload : List Token} (holds : Payload name payload) :
    (Token.keyword name).kind ∈ nameKinds := by
  cases holds <;> decide

theorem not_payload_of_name {kind : Kind} (name : kind ∈ nameKinds) : kind ∉ payloadKinds :=
  (by decide : ∀ kind ∈ nameKinds, kind ∉ payloadKinds) kind name

theorem guard_cons {guard : List Token} {condition : Expr} (holds : Guard guard condition) :
    ∃ tail, guard = .keyword .guard :: tail ∧ Bracketed tail condition := by
  cases holds with
  | intro tail => exact ⟨_, rfl, tail⟩

theorem bracketed_plain {word : List Token} {value : Expr} (holds : Bracketed word value) :
    .keyword .guard ∉ word := (bracketed_within holds).not_mem (by decide)

theorem payload_plain {name : Keyword} {payload : List Token} (holds : Payload name payload) :
    .keyword .guard ∉ .keyword name :: payload := by
  intro member
  rcases List.mem_cons.1 member with same | member
  · have name := payload_name holds
    rw [← same] at name
    exact absurd name (by decide)
  · exact (payload_within holds).not_mem (by decide) member

end Phrase

theorem last_occurrence {Item : Type} {item : Item} {front back front' back' : List Item}
    (same : front ++ item :: back = front' ++ item :: back') (last : item ∉ back)
    (last' : item ∉ back') : front = front' ∧ back = back' := by
  rcases append_compare same with ⟨other, spill, rfl, same'⟩ | ⟨spill, rfl, same'⟩
  · obtain ⟨rfl, rfl⟩ := List.cons.inj same'
    exact absurd (List.mem_append_right spill (List.mem_cons_self)) last
  · rcases spill with _ | ⟨other, spill⟩
    · exact ⟨List.append_nil _, ((List.cons.inj same').2).symm⟩
    · obtain ⟨rfl, rfl⟩ := List.cons.inj same'
      exact absurd (List.mem_append_right spill (List.mem_cons_self)) last'

theorem only_occurrence {Item : Type} {item : Item} {front back front' back' : List Item}
    (same : front ++ item :: back = front' ++ item :: back') (before : item ∉ front)
    (after : item ∉ back) : front = front' ∧ back = back' := by
  rcases append_compare same with ⟨other, spill, rfl, same'⟩ | ⟨spill, rfl, same'⟩
  · obtain ⟨rfl, rfl⟩ := List.cons.inj same'
    exact absurd (List.mem_append_right spill List.mem_cons_self) after
  · rcases spill with _ | ⟨other, spill⟩
    · exact ⟨List.append_nil _, ((List.cons.inj same').2).symm⟩
    · obtain ⟨rfl, rfl⟩ := List.cons.inj same'
      exact absurd (List.mem_append_right front' List.mem_cons_self) before

/-- A guard that ends where the last guard keyword leads is all that follows the keyword. -/
theorem behind_guard_iff (front : List Token) {tail : List Token} (last : .keyword .guard ∉ tail) :
    BehindGuard (front ++ .keyword .guard :: tail) ↔
      BehindPayload front ∧ ∃ condition, Phrase.Guard (.keyword .guard :: tail) condition := by
  constructor
  · rintro ⟨before, name, payload, guard, condition, wellFormed, holds, split⟩
    obtain ⟨tail', rfl, bracketed⟩ := Phrase.guard_cons holds
    have split' : front ++ .keyword .guard :: tail =
        (before ++ .keyword name :: payload) ++ .keyword .guard :: tail' := by simpa using split
    obtain ⟨rfl, rfl⟩ := last_occurrence split' last (Phrase.bracketed_plain bracketed)
    exact ⟨⟨before, name, payload, wellFormed, rfl⟩, condition, holds⟩
  · rintro ⟨behind, condition, holds⟩
    exact behind.guard holds

/-- Behind a token that is not part of a payload a guard stands as a whole, unless it begins with
this token and the payload ends in front of it. -/
theorem BehindGuard.of_append_cons {front rest : List Token} {token : Token}
    (plain : token.kind ∉ Phrase.payloadKinds) (behind : BehindGuard (front ++ token :: rest)) :
    BehindGuard (token :: rest) ∨
      BehindPayload front ∧ ∃ condition, Phrase.Guard (token :: rest) condition := by
  obtain ⟨before, name, payload, guard, condition, wellFormed, holds, split⟩ := behind
  rw [List.append_assoc, List.cons_append] at split
  rcases append_compare split with ⟨item, spill, rfl, same⟩ | ⟨spill, rfl, same⟩
  · rw [same]
    exact .inl ⟨item :: spill, name, payload, guard, condition, wellFormed, holds, by simp⟩
  rcases spill with _ | ⟨item, spill⟩
  · rw [List.nil_append] at same
    rw [← same]
    exact .inl ⟨[], name, payload, guard, condition, wellFormed, holds, rfl⟩
  · obtain ⟨rfl, same'⟩ := List.cons.inj same
    rcases append_compare same' with ⟨item, more, rfl, same''⟩ | ⟨more, rfl, same''⟩
    · obtain ⟨tail, rfl, bracketed⟩ := Phrase.guard_cons holds
      obtain ⟨rfl, rfl⟩ := List.cons.inj same''
      have known := Phrase.bracketed_within bracketed token (by simp)
      exact absurd (List.mem_cons_of_mem _ known) plain
    · rcases more with _ | ⟨item, more⟩
      · rw [List.append_nil] at wellFormed
        rw [same'']
        exact .inr ⟨⟨before, name, spill, wellFormed, rfl⟩, condition, holds⟩
      · obtain ⟨rfl, -⟩ := List.cons.inj same''
        exact absurd (Phrase.payload_within wellFormed token (by simp)) plain

theorem BehindGuard.of_cons {token : Token} {rest : List Token}
    (other : token.kind ∉ Phrase.nameKinds) (behind : BehindGuard (token :: rest)) :
    BehindGuard rest := by
  obtain ⟨before, name, payload, guard, condition, wellFormed, inGuard, split⟩ := behind
  rcases before with _ | ⟨item, before⟩
  · obtain ⟨rfl, -⟩ := List.cons.inj split
    exact absurd (Phrase.payload_name wellFormed) other
  · obtain ⟨-, rfl⟩ := List.cons.inj split
    exact ⟨before, name, payload, guard, condition, wellFormed, inGuard, rfl⟩

theorem not_behind_guard_of_last {front : List Token} {token : Token}
    (other : token ≠ .mark .closeBracket) : ¬ BehindGuard (front ++ [token]) := by
  rintro ⟨before, name, payload, guard, condition, -, holds, split⟩
  cases holds with
  | intro bracketed =>
      cases bracketed with
      | intro =>
          rw [← List.cons_append, ← List.append_assoc] at split
          exact other (List.singleton_inj.1 (List.append_inj_right' split rfl))

theorem not_behind_guard_of_closed (front : List Token) :
    ¬ BehindGuard (front ++ [.mark .closeBrace]) := not_behind_guard_of_last nofun

theorem BehindPayload.of_append_cons {front rest : List Token} {token : Token}
    (plain : token.kind ∉ Phrase.payloadKinds) (behind : BehindPayload (front ++ token :: rest)) :
    BehindPayload (token :: rest) := by
  obtain ⟨before, name, payload, wellFormed, split⟩ := behind
  rcases append_compare split with ⟨item, spill, rfl, same⟩ | ⟨spill, rfl, same⟩
  · rw [same]
    exact ⟨item :: spill, name, payload, wellFormed, rfl⟩
  rcases spill with _ | ⟨item, spill⟩
  · rw [List.nil_append] at same
    rw [← same]
    exact ⟨[], name, payload, wellFormed, rfl⟩
  · obtain ⟨rfl, rfl⟩ := List.cons.inj same
    exact absurd (Phrase.payload_within wellFormed token (by simp)) plain

theorem not_behind_payload_nil : ¬ BehindPayload [] := by
  rintro ⟨before, name, payload, -, split⟩
  simp at split

theorem not_behind_payload (front : List Token) {rest : List Token} {token : Token}
    (plain : token.kind ∉ Phrase.payloadKinds) (other : token.kind ∉ Phrase.nameKinds)
    (within : Within Phrase.payloadKinds rest) : ¬ BehindPayload (front ++ token :: rest) := by
  intro behind
  obtain ⟨before, name, payload, wellFormed, split⟩ := behind.of_append_cons plain
  have known := Phrase.payload_name wellFormed
  rcases before with _ | ⟨item, before⟩
  · obtain ⟨rfl, -⟩ := List.cons.inj split
    exact other known
  · obtain ⟨rfl, rfl⟩ := List.cons.inj split
    exact Phrase.not_payload_of_name known (within _ (by simp))

/-- Behind the words of the first language nothing goes on like the second one, and no guard stands
astride the two if the second one does not begin like the rest of a payload. -/
theorem Shaped.follows_of_plain {first : Language Value} {second : Language Value'} {shape : Shape}
    {firsts : List Kind} (shaped : Shaped first shape)
    (begins : ∀ token, second.Viable [token] → token.kind ∈ firsts)
    (apart : ∀ kind ∈ shape.nexts, kind ∉ firsts)
    (plain : ∀ kind ∈ firsts, kind ∉ Phrase.payloadKinds)
    (payload : .keyword .guard ∈ firsts → ∀ word value, first word value → ¬ BehindPayload word)
    (brace : .mark .openBrace ∈ firsts → ∀ word value, first word value → ¬ BehindGuard word) :
    Follows first second where
  apart := by
    intro word value token token' holds viable viable' same
    exact apart _ (shaped.next word value token holds viable) (same ▸ begins token' viable')
  clear := by
    intro word value spill holds viable filled behind
    obtain ⟨token, spill, rfl⟩ := List.exists_cons_of_ne_nil filled
    have parts : second.Viable ([token] ++ spill) := viable
    have known := begins token parts.of_append
    rcases behind.of_append_cons (plain _ known) with inOver | ⟨ends, condition, holds'⟩
    · exact inOver
    · obtain ⟨tail, same, -⟩ := Phrase.guard_cons holds'
      obtain ⟨rfl, -⟩ := List.cons.inj same
      exact absurd ends (payload known word value holds)
  brace := by
    intro word value holds behind viable
    exact brace (begins _ viable) word value holds behind

end KernelMenu.Grammar

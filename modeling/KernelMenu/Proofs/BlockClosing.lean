import KernelMenu.Proofs.SourceReading

/-!
Behind the guard of a property the block around it may close. So a source that ends behind a guard
asks for more than what the guard leaves out.
-/

namespace KernelMenu.Grammar

open KernelMenu.Grammar.Language

variable {Value Value' : Type}

/-- Behind each guard in the word a closing brace may come. -/
def ClosesAt (language : Language Value) (word : List Token) : Prop :=
  ∀ front back, word = front ++ back → BehindGuard front →
    language.Viable (front ++ [.mark .closeBrace])

theorem closes_at_nil (language : Language Value) : ClosesAt language [] := by
  intro front back split behind
  rw [(List.append_eq_nil_iff.1 split.symm).1] at behind
  exact absurd behind not_behind_guard_nil

theorem closes_at_cons {language : Language Value} {word words : List Token} {value : Value}
    {values : List Value} (holds : language word value) (ends : ¬ BehindPayload word)
    (rest : Star language words values)
    (plain : ∀ token, Language.Viable (Star language) [token] →
      token.kind ∉ Phrase.payloadKinds)
    (closes : ClosesAt language word) (closes' : ClosesAt (Star language) words) :
    ClosesAt (Star language) (word ++ words) := by
  have inWord : ∀ front back, word = front ++ back → BehindGuard front →
      Language.Viable (Star language) (front ++ [.mark .closeBrace]) := by
    intro front back split behind
    obtain ⟨more, value', holds'⟩ := closes front back split behind
    exact ⟨more, [value'], star_one holds'⟩
  intro front back split behind
  rcases append_compare split.symm with ⟨item, spill, same, -⟩ | ⟨spill, rfl, rfl⟩
  · exact inWord front _ same behind
  · rcases spill with _ | ⟨token, spill⟩
    · rw [List.append_nil] at behind ⊢
      exact inWord word [] (List.append_nil _).symm behind
    · have parts : Language.Viable (Star language) ([token] ++ (spill ++ back)) :=
        viable_of_word rest
      rcases behind.of_append_cons (plain token parts.of_append) with inRest | ⟨behind', -⟩
      · obtain ⟨more, values', holds'⟩ := closes' (token :: spill) back rfl inRest
        refine ⟨more, value :: values', ?_⟩
        rw [List.append_assoc, List.append_assoc, ← List.append_assoc (token :: spill)]
        exact .cons holds holds'
      · exact absurd behind' ends

/-- A word behind whose guards one may stop or close. -/
def EndsAt (language : Language Value) (word : List Token) : Prop :=
  ∀ front back, word = front ++ back → BehindGuard front →
    (∃ value, language front value) ∨ language.Viable (front ++ [.mark .closeBrace])

theorem ends_at_both {first : Language Value} {second : Language Value'} {front back : List Token}
    {value : Value} {value' other : Value'} (clauses : Clauses first) (nothing : second [] other)
    (plain : ∀ token, second.Viable [token] → token.kind ∉ Phrase.payloadKinds)
    (holds : first front value) (holds' : second back value') (closes : ClosesAt second back) :
    EndsAt (first.both second) (front ++ back) := by
  intro word rest split behind
  rcases append_compare split.symm with ⟨item, spill, rfl, -⟩ | ⟨spill, rfl, rfl⟩
  · obtain ⟨value, shorter⟩ := clauses.stop word _ _ holds behind
    exact .inl ⟨(value, other), word, [], (List.append_nil _).symm, shorter, nothing⟩
  · rcases spill with _ | ⟨token, spill⟩
    · exact .inl ⟨(value, other), front, [], rfl, holds, nothing⟩
    · have parts : second.Viable ([token] ++ (spill ++ rest)) := viable_of_word holds'
      rcases behind.of_append_cons (plain token parts.of_append) with
        inSecond | ⟨ends, condition, inGuard⟩
      · right
        rw [List.append_assoc]
        exact viable_both_of_second holds (closes (token :: spill) rest rfl inSecond)
      · obtain ⟨value, longer⟩ := clauses.extend front _ _ condition holds ends inGuard
        exact .inl ⟨(value, other), _, [], (List.append_nil _).symm, longer, nothing⟩

/-- A guard in a block stands between the braces, and the block may be closed behind it. -/
theorem closes_in_block {language : Language Value} {header inner : List Token}
    (free : ∀ front back, header = front ++ back → ¬ BehindGuard front)
    (ends : EndsAt language inner) {front back : List Token}
    (split : header ++ (.mark .openBrace :: inner ++ [.mark .closeBrace]) = front ++ back)
    (behind : BehindGuard front) : ∃ inner' value more, language inner' value ∧
      header ++ (.mark .openBrace :: inner' ++ [.mark .closeBrace]) =
        front ++ [.mark .closeBrace] ++ more := by
  rcases append_compare split.symm with ⟨item, spill, rfl, -⟩ | ⟨spill, rfl, same⟩
  · exact absurd behind (free front _ rfl)
  rcases spill with _ | ⟨token, spill⟩
  · rw [List.append_nil] at behind
    exact absurd behind (free header [] (List.append_nil _).symm)
  obtain ⟨rfl, same'⟩ := List.cons.inj same
  have inside : BehindGuard spill := by
    rcases behind.of_append_cons (by decide) with inOver | ⟨-, condition, inGuard⟩
    · exact inOver.of_cons (by decide)
    · obtain ⟨tail, wrong, -⟩ := Phrase.guard_cons inGuard
      exact nomatch (List.cons.inj wrong).1
  obtain ⟨rest, rfl⟩ : ∃ rest, inner = spill ++ rest := by
    rcases append_compare same' with ⟨item, more, rfl, last⟩ | ⟨rest, inner, -⟩
    · obtain ⟨rfl, none⟩ := List.cons.inj last
      obtain ⟨rfl, -⟩ := List.append_eq_nil_iff.1 none.symm
      exact absurd inside (not_behind_guard_of_closed _)
    · exact ⟨rest, inner⟩
  rcases ends spill rest rfl inside with ⟨value, holds⟩ | ⟨more, value, holds⟩
  · exact ⟨spill, value, [], holds, by simp⟩
  · exact ⟨_, value, more ++ [.mark .closeBrace], holds, by simp⟩

theorem free_of_plain {header : List Token} (plain : .keyword .guard ∉ header)
    (front back : List Token) (split : header = front ++ back) : ¬ BehindGuard front := by
  intro behind
  rw [split] at plain
  exact plain (List.mem_append_left back behind.guard_mem)

namespace Phrase

theorem source_closes {symbols : List Token} (closes : ClosesAt (Star Symbol) symbols) :
    ClosesAt Source symbols := by
  intro front back split behind
  obtain ⟨more, parts, holds⟩ := closes front back split behind
  exact ⟨more, _, .intro holds⟩

theorem config_star_plain {token : Token} (viable : Language.Viable (Star Config) [token]) :
    token.kind ∉ payloadKinds := by
  obtain ⟨rest, entries, holds⟩ := viable
  rcases star_nil_or_cons holds with ⟨none, -⟩ | ⟨first, others, value, values, same, -, config, -⟩
  · exact nomatch none
  · obtain ⟨other, first, rfl, known⟩ := config_first config
    obtain ⟨rfl, -⟩ := List.cons.inj same
    exact (by decide : ∀ kind ∈ [Kind.keyword .config, .keyword .menuconfig],
      kind ∉ payloadKinds) _ known

theorem symbol_star_plain {token : Token} (viable : Language.Viable (Star Symbol) [token]) :
    token.kind ∉ payloadKinds := by
  obtain ⟨rest, parts, holds⟩ := viable
  exact source_blocks.plain token ⟨rest, _, .intro holds⟩

theorem config_closes {header clauses last symbols : List Token} {isMenu : Bool} {name : String}
    {type : ValueType} {properties : List Property} {inherited : Option Expr}
    {children : List (List Draft)} (header' : Header header isMenu name type)
    (clauses' : Star PropertyClause clauses properties) (last' : Maybe Inherited last inherited)
    (symbols' : Star Symbol symbols children) (closes : ClosesAt (Star Symbol) symbols) :
    ClosesAt Config
      (header ++ .mark .openBrace :: clauses ++ last ++ symbols ++ [.mark .closeBrace]) := by
  intro front back split behind
  have front' : EntryClauses (clauses ++ last) (properties, inherited) :=
    ⟨clauses, last, rfl, clauses', last'⟩
  have ends : EndsAt EntryBody (clauses ++ last ++ symbols) := ends_at_both entry_clauses
    source_nil source_blocks.plain front' (.intro symbols') (source_closes closes)
  have free := free_of_plain ((header_within header').not_mem (by decide))
  obtain ⟨inner, ⟨⟨properties, inherited⟩, children⟩, more, ⟨front', symbols, rfl,
    ⟨clauses, last, rfl, clauses', last'⟩, symbols'⟩, whole⟩ :=
    closes_in_block free ends (by simpa using split) behind
  obtain ⟨parts, inSymbols, rfl⟩ := source_iff.1 symbols'
  have closed := Config.body header' clauses' last' inSymbols
  exact ⟨more, _, by rw [← whole]; simpa using closed⟩

theorem menu_closes (title : String) {depends symbols : List Token} {condition : Option Expr}
    {children : List (List Draft)} (depends' : Maybe Dependency depends condition)
    (symbols' : Star Symbol symbols children) (closes : ClosesAt (Star Symbol) symbols) :
    ClosesAt Symbol (.keyword .menu :: .text title :: .mark .openBrace :: depends ++ symbols ++
      [.mark .closeBrace]) := by
  intro front back split behind
  have ends : EndsAt ((Maybe Dependency).both Source) (depends ++ symbols) := ends_at_both
    dependency_clauses.maybe source_nil source_blocks.plain depends' (.intro symbols')
    (source_closes closes)
  have free := free_of_plain ((menu_within title).not_mem (by decide))
  obtain ⟨inner, ⟨condition, children⟩, more, ⟨depends, symbols, rfl, depends', symbols'⟩,
    whole⟩ := closes_in_block free ends (by simpa using split) behind
  obtain ⟨parts, inSymbols, rfl⟩ := source_iff.1 symbols'
  have closed := Symbol.menu title depends' inSymbols
  exact ⟨more, _, by rw [← whole]; simpa using closed⟩

theorem choice_closes (type : ValueType) (isOptional : Bool) {clauses entries : List Token}
    {properties : List Property} {options : List (ConfigClauses × List Draft)}
    (clauses' : Star ChoiceClause clauses properties) (entries' : Star Config entries options)
    (closes : ClosesAt (Star Config) entries) :
    ClosesAt Symbol (.keyword .choice :: .keyword type.keyword ::
      (if isOptional then [.keyword .optional] else []) ++
      .mark .openBrace :: clauses ++ entries ++ [.mark .closeBrace]) := by
  intro front back split behind
  have ends : EndsAt ((Star ChoiceClause).both (Star Config)) (clauses ++ entries) :=
    ends_at_both choice_star_clauses .nil (fun _ => config_star_plain) clauses' entries' closes
  have free := free_of_plain ((choice_within type isOptional).not_mem (by decide))
  obtain ⟨inner, ⟨properties, options⟩, more, ⟨clauses, entries, rfl, clauses', entries'⟩,
    whole⟩ := closes_in_block free ends (by simpa using split) behind
  have closed := Symbol.choice type isOptional clauses' entries'
  exact ⟨more, _, by rw [← whole]; simpa using closed⟩

theorem block_closes {guard symbols : List Token} {condition : Expr}
    (guard' : Guard guard condition) (closes : ClosesAt (Star Symbol) symbols) :
    ClosesAt Symbol (guard ++ .mark .openBrace :: symbols ++ [.mark .closeBrace]) := by
  intro front back split behind
  have ends : EndsAt Source symbols := fun front back split behind =>
    .inr (source_closes closes front back split behind)
  have free : ∀ front back, guard = front ++ back → ¬ BehindGuard front := by
    intro front back split
    exact not_behind_guard ⟨back, condition, split ▸ guard'⟩
  obtain ⟨inner, children, more, symbols', whole⟩ :=
    closes_in_block free ends (by simpa using split) behind
  obtain ⟨parts, inSymbols, rfl⟩ := source_iff.1 symbols'
  have closed := Symbol.block guard' inSymbols
  exact ⟨more, _, by rw [← whole]; simpa using closed⟩

theorem symbol_closes {word : List Token} {drafts : List Draft} (holds : Symbol word drafts) :
    ClosesAt Symbol word := by
  refine @Symbol.rec (fun word _ _ => ClosesAt Config word) (fun word _ _ => ClosesAt Symbol word)
    (fun word _ _ => ClosesAt (Star Symbol) word) (fun word _ _ => ClosesAt (Star Config) word)
    ?_ ?_ ?_ ?_ ?_ ?_ (closes_at_nil _) ?_ (closes_at_nil _) ?_ word drafts holds
  · intro header isMenu name type holds front back split behind
    exact absurd behind (free_of_plain ((header_within holds).not_mem (by decide)) front back split)
  · intro _ _ _ _ _ _ _ _ _ _ header clauses last symbols closes
    exact config_closes header clauses last symbols closes
  · intro title _ _ _ _ depends symbols closes
    exact menu_closes title depends symbols closes
  · intro word head children holds closes front back split behind
    obtain ⟨more, ⟨head, children⟩, holds'⟩ := closes front back split behind
    exact ⟨more, _, .config holds'⟩
  · intro type isOptional _ _ _ _ clauses entries closes
    exact choice_closes type isOptional clauses entries closes
  · intro _ _ _ _ guard _ closes
    exact block_closes guard closes
  · intro word words value values first rest closes closes'
    exact closes_at_cons first (symbol_not_behind_payload first) rest
      (fun _ => symbol_star_plain) closes closes'
  · intro word words value values first rest closes closes'
    exact closes_at_cons first (config_not_behind_payload first) rest
      (fun _ => config_star_plain) closes closes'

theorem symbols_close {symbols : List Token} {parts : List (List Draft)}
    (holds : Star Symbol symbols parts) : ClosesAt (Star Symbol) symbols := by
  induction holds with
  | nil => exact closes_at_nil _
  | cons first rest induction =>
      exact closes_at_cons first (symbol_not_behind_payload first) rest
        (fun _ => symbol_star_plain) (symbol_closes first) induction

/-- A source that ends behind a guard goes on with a closing brace. -/
theorem source_closes_behind_guard {word : List Token} (viable : Language.Viable Source word)
    (behind : BehindGuard word) : Language.Viable Source (word ++ [.mark .closeBrace]) := by
  obtain ⟨rest, drafts, holds⟩ := viable
  obtain ⟨parts, inSymbols, -⟩ := source_iff.1 holds
  exact source_closes (symbols_close inSymbols) word rest rfl behind

end Phrase

end KernelMenu.Grammar

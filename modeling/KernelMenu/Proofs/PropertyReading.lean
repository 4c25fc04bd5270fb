import KernelMenu.Proofs.ClauseReading

/-!
Reading the properties of entries and choices, dependencies and inherited conditions.
-/

namespace KernelMenu.Grammar

open KernelMenu.Grammar.Language

namespace Phrase

theorem condition_of_guard {guard : List Token} {condition : Option Expr}
    (holds : Maybe Guard guard condition) : Condition guard (condition.getD .yes) :=
  ⟨condition, holds, rfl⟩

def Range : Language Bounds :=
  ((Value.both Value).enclosed .openBracket .closeBracket).map fun (low, high) => ⟨low, high⟩

theorem range_iff {word : List Token} {bounds : Bounds} : Range word bounds ↔ ∃ low high,
    word = .mark .openBracket :: (low ++ high) ++ [.mark .closeBracket] ∧
      Value low bounds.low ∧ Value high bounds.high := by
  constructor
  · rintro ⟨pair, holds, rfl⟩
    obtain ⟨inner, rfl, low, high, rfl, first, second⟩ := enclosed_iff.1 holds
    exact ⟨low, high, rfl, first, second⟩
  · rintro ⟨low, high, rfl, first, second⟩
    exact ⟨(_, _), enclosed_iff.2 ⟨_, rfl, low, high, rfl, first, second⟩, rfl⟩

theorem dependency_iff {word : List Token} {condition : Expr} : Dependency word condition ↔
    ((Clause .depends ((token (.keyword .on)).before Bracketed)).map
      fun clause => clause.payload.conjoin clause.condition) word condition := by
  constructor
  · intro holds
    cases holds with
    | intro bracketed guard =>
        exact ⟨⟨_, _⟩, clause_iff.2 ⟨_, _, rfl, before_token_iff.2 ⟨_, rfl, bracketed⟩,
          condition_of_guard guard⟩, rfl⟩
  · rintro ⟨⟨payload, condition⟩, holds, rfl⟩
    obtain ⟨front, guard, rfl, first, extra, second, rfl⟩ := clause_iff.1 holds
    obtain ⟨front, rfl, bracketed⟩ := before_token_iff.1 first
    exact .intro bracketed second

theorem prompt_iff {word : List Token} {text : Guarded String} :
    PropertyClause word (.prompt text) ↔
      Clause .prompt (fun word text => word = [.text text]) word text := by
  rw [clause_iff]
  constructor
  · intro holds
    cases holds with
    | prompt body guard => exact ⟨_, _, rfl, rfl, condition_of_guard guard⟩
  · obtain ⟨payload, condition⟩ := text
    rintro ⟨front, guard, rfl, rfl, condition, holds, rfl⟩
    exact .prompt payload holds

theorem default_iff {word : List Token} {value : Guarded Expr} :
    PropertyClause word (.default value) ↔ Clause .default Bracketed word value := by
  rw [clause_iff]
  constructor
  · intro holds
    cases holds with
    | default bracketed guard => exact ⟨_, _, rfl, bracketed, condition_of_guard guard⟩
  · obtain ⟨payload, condition⟩ := value
    rintro ⟨front, guard, rfl, bracketed, condition, holds, rfl⟩
    exact .default bracketed holds

theorem range_clause_iff {word : List Token} {bounds : Guarded Bounds} :
    PropertyClause word (.range bounds) ↔ Clause .range Range word bounds := by
  rw [clause_iff]
  constructor
  · intro holds
    cases holds with
    | @range low high guard least most condition low' high' guard' =>
        refine ⟨_, guard, ?_, range_iff.2 ⟨low, high, rfl, low', high'⟩, condition_of_guard guard'⟩
        simp
  · obtain ⟨payload, condition⟩ := bounds
    rintro ⟨front, guard, rfl, range, condition, holds, rfl⟩
    obtain ⟨low, high, rfl, low', high'⟩ := range_iff.1 range
    simpa using PropertyClause.range low' high' holds

theorem select_iff {word : List Token} {target : Guarded String} :
    PropertyClause word (.select target) ↔
      Clause .select (fun word name => word = [.ident name]) word target := by
  rw [clause_iff]
  constructor
  · intro holds
    cases holds with
    | select name guard => exact ⟨_, _, rfl, rfl, condition_of_guard guard⟩
  · obtain ⟨payload, condition⟩ := target
    rintro ⟨front, guard, rfl, rfl, condition, holds, rfl⟩
    exact .select payload holds

theorem env_iff {word : List Token} {name : Guarded String} :
    PropertyClause word (.env name) ↔
      Clause .env (fun word name => word = [.ident name]) word name := by
  rw [clause_iff]
  constructor
  · intro holds
    cases holds with
    | env name guard => exact ⟨_, _, rfl, rfl, condition_of_guard guard⟩
  · obtain ⟨payload, condition⟩ := name
    rintro ⟨front, guard, rfl, rfl, condition, holds, rfl⟩
    exact .env payload holds

theorem depends_iff {word : List Token} {condition : Expr} :
    PropertyClause word (.dependsOn condition) ↔ Dependency word condition := by
  constructor
  · intro holds
    cases holds with
    | depends holds => exact holds
  · exact .depends

theorem inherited_iff {word : List Token} {condition : Expr} :
    Inherited word condition ↔ ((token (.keyword .inherited)).before Bracketed) word condition := by
  rw [before_token_iff]
  constructor
  · intro holds
    cases holds with
    | intro bracketed => exact ⟨_, rfl, bracketed⟩
  · rintro ⟨rest, rfl, bracketed⟩
    exact .intro bracketed

end Phrase

section Payloads

variable (word : List Token)

theorem prompt_payload (text : String) (holds : word = [.text text]) :
    Phrase.Payload .prompt word := by
  rw [holds]
  exact .prompt text

theorem depends_payload (condition : Expr)
    (holds : ((token (.keyword .on)).before Phrase.Bracketed) word condition) :
    Phrase.Payload .depends word := by
  obtain ⟨rest, rfl, bracketed⟩ := before_token_iff.1 holds
  exact .depends bracketed

theorem default_payload (value : Expr) (holds : Phrase.Bracketed word value) :
    Phrase.Payload .default word := .default holds

theorem range_payload (bounds : Bounds) (holds : Phrase.Range word bounds) :
    Phrase.Payload .range word := by
  obtain ⟨low, high, rfl, low', high'⟩ := Phrase.range_iff.1 holds
  exact .range low' high'

theorem select_payload (name : String) (holds : word = [.ident name]) :
    Phrase.Payload .select word := by
  rw [holds]
  exact .select name

theorem env_payload (name : String) (holds : word = [.ident name]) :
    Phrase.Payload .env word := by
  rw [holds]
  exact .env name

end Payloads

def clauseShape (name : Keyword) : Shape := ⟨[.keyword name], [.keyword .guard], false, true⟩

theorem dependency_reader (bound : Nat) :
    Reader bound dependency Phrase.Dependency (clauseShape .depends) := by
  have on := keyword_reader bound (show (Token.keyword .on).kind ≠ .classed from nofun)
  have payload := (on.both (bracketed_reader bound) nofun rfl rfl).map Prod.snd
  exact ((clause_reader payload rfl rfl depends_payload).map _).congr
    fun _ _ => Phrase.dependency_iff

theorem prompt_reader (bound : Nat) : Reader bound promptClause
    ((Clause .prompt fun word text => word = [.text text]).map .prompt) (clauseShape .prompt) :=
  (clause_reader (quoted_text_reader bound) rfl rfl prompt_payload).map _

theorem default_reader (bound : Nat) : Reader bound defaultClause
    ((Clause .default Phrase.Bracketed).map .default) (clauseShape .default) :=
  (clause_reader (bracketed_reader bound) rfl rfl default_payload).map _

theorem range_reader (bound : Nat) : Reader bound rangeClause
    ((Clause .range Phrase.Range).map .range) (clauseShape .range) := by
  have values := (value_reader bound).both (value_reader bound) nofun rfl rfl
  have bounds : Reader bound bounds Phrase.Range bracketedShape :=
    ((values.enclosed_of_apart .openBracket .closeBracket rfl nofun).map _).mono (Nat.le_succ bound)
  exact (clause_reader bounds rfl rfl range_payload).map _

theorem select_reader (bound : Nat) : Reader bound selectClause
    ((Clause .select fun word name => word = [.ident name]).map .select) (clauseShape .select) :=
  (clause_reader (identifier_reader bound) rfl rfl select_payload).map _

theorem env_reader (bound : Nat) : Reader bound envClause
    ((Clause .env fun word name => word = [.ident name]).map .env) (clauseShape .env) :=
  (clause_reader (identifier_reader bound) rfl rfl env_payload).map _

theorem inherited_reader (bound : Nat) : Reader bound inheritedClause Phrase.Inherited
    ⟨[.keyword .inherited], [], false, false⟩ := by
  have word := keyword_reader bound (show (Token.keyword .inherited).kind ≠ .classed from nofun)
  exact ((word.both (bracketed_reader bound) nofun rfl rfl).map Prod.snd).congr
    fun _ _ => Phrase.inherited_iff

theorem Phrase.property_iff {word : List Token} {property : Property} :
    PropertyClause word property ↔
      (((Clause .prompt fun word text => word = [.text text]).map .prompt).either
        ((Dependency.map .dependsOn).either
          (((Clause .default Bracketed).map .default).either
            (((Clause .range Range).map .range).either
              (((Clause .select fun word name => word = [.ident name]).map .select).either
                ((Clause .env fun word name => word = [.ident name]).map .env))))))
        word property := by
  constructor
  · intro holds
    cases property with
    | prompt text => exact .inl ⟨text, prompt_iff.1 holds, rfl⟩
    | dependsOn condition => exact .inr (.inl ⟨condition, depends_iff.1 holds, rfl⟩)
    | default value => exact .inr (.inr (.inl ⟨value, default_iff.1 holds, rfl⟩))
    | range bounds => exact .inr (.inr (.inr (.inl ⟨bounds, range_clause_iff.1 holds, rfl⟩)))
    | select target => exact .inr (.inr (.inr (.inr (.inl ⟨target, select_iff.1 holds, rfl⟩))))
    | env name => exact .inr (.inr (.inr (.inr (.inr ⟨name, env_iff.1 holds, rfl⟩))))
  · rintro (⟨text, holds, rfl⟩ | ⟨condition, holds, rfl⟩ | ⟨value, holds, rfl⟩ |
      ⟨bounds, holds, rfl⟩ | ⟨target, holds, rfl⟩ | ⟨name, holds, rfl⟩)
    · exact prompt_iff.2 holds
    · exact depends_iff.2 holds
    · exact default_iff.2 holds
    · exact range_clause_iff.2 holds
    · exact select_iff.2 holds
    · exact env_iff.2 holds

def propertyShape : Shape where
  firsts := [.keyword .prompt, .keyword .depends, .keyword .default, .keyword .range,
    .keyword .select, .keyword .env]
  nexts := List.replicate 6 (.keyword .guard)
  empty := false
  guards := true

theorem property_reader (bound : Nat) :
    Reader bound property Phrase.PropertyClause propertyShape := by
  have depends : Reader bound dependsClause _ _ := (dependency_reader bound).map Property.dependsOn
  have fromEnv : Reader bound (.firstOf envClause []) _ _ := env_reader bound
  have fromSelect := (select_reader bound).firstOf fromEnv (by decide) rfl rfl
  have fromRange := (range_reader bound).firstOf fromSelect (by decide) rfl rfl
  have fromDefault := (default_reader bound).firstOf fromRange (by decide) rfl rfl
  have fromDepends := depends.firstOf fromDefault (by decide) rfl rfl
  have fromPrompt := (prompt_reader bound).firstOf fromDepends (by decide) rfl rfl
  exact fromPrompt.congr fun _ _ => Phrase.property_iff

theorem Phrase.choice_clause_iff {word : List Token} {property : Property} :
    ChoiceClause word property ↔
      (((Clause .prompt fun word text => word = [.text text]).map .prompt).either
        (((Clause .default Bracketed).map .default).either (Dependency.map .dependsOn)))
        word property := by
  constructor
  · intro holds
    cases holds with
    | prompt holds => exact .inl ⟨_, prompt_iff.1 holds, rfl⟩
    | default holds => exact .inr (.inl ⟨_, default_iff.1 holds, rfl⟩)
    | depends holds => exact .inr (.inr ⟨_, depends_iff.1 holds, rfl⟩)
  · rintro (⟨text, holds, rfl⟩ | ⟨value, holds, rfl⟩ | ⟨condition, holds, rfl⟩)
    · exact .prompt (prompt_iff.2 holds)
    · exact .default (default_iff.2 holds)
    · exact .depends (depends_iff.2 holds)

def choicePropertyShape : Shape where
  firsts := [.keyword .prompt, .keyword .default, .keyword .depends]
  nexts := List.replicate 3 (.keyword .guard)
  empty := false
  guards := true

theorem choice_property_reader (bound : Nat) :
    Reader bound choiceProperty Phrase.ChoiceClause choicePropertyShape := by
  have fromDepends : Reader bound (.firstOf dependsClause []) _ _ :=
    (dependency_reader bound).map Property.dependsOn
  have fromDefault := (default_reader bound).firstOf fromDepends (by decide) rfl rfl
  have fromPrompt := (prompt_reader bound).firstOf fromDefault (by decide) rfl rfl
  exact fromPrompt.congr fun _ _ => Phrase.choice_clause_iff

end KernelMenu.Grammar

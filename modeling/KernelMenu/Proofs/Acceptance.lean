import KernelMenu.Proofs.SourceReading

/-!
The grammar as a program and the grammar as it is written down. A token list is accepted exactly if
it can be derived, and then the drafts are what its derivations stand for. A list that is rejected
fails where no derivation goes on, and asks for all that would.
-/

namespace KernelMenu.Grammar

open KernelMenu.Grammar.Language

/-- The grammar reads the whole list. -/
def Accepts (tokens : List Token) : Prop :=
  ∃ drafts used missed, source tokens = .ok drafts used missed

/-- Some list that is accepted begins with the tokens. -/
def Continues (front : List Token) : Prop := ∃ rest, Accepts (front ++ rest)

/-- What was looked for where a list was given up. -/
structure Wanted (word rest : List Token) (wants : List Want) : Prop where
  tokens : ∀ token, (∃ want ∈ wants, want.Admits token) ↔ Phrase.Source.Sought word rest token
  ending : ¬ BehindGuard word → (.endOfInput ∈ wants ↔ ∃ drafts, Phrase.Source word drafts)
  blocked : BehindGuard word → (.endOfInput ∈ wants ↔ rest.head? = some (.mark .openBrace))
  fixed : ∀ token, .token token ∈ wants → token.kind ≠ .classed
  classes : ∀ left right, .oneOf left ∈ wants → .oneOf right ∈ wants → left = right

inductive SourceRead (tokens : List Token) : Outcome (List Draft) → Prop
  | accepted {drafts : List Draft} {missed : Option Failure} (holds : Phrase.Source tokens drafts)
      (only : ∀ drafts', Phrase.Source tokens drafts' → drafts' = drafts) :
      SourceRead tokens (.ok drafts tokens.length missed)
  | rejected {failure : Failure} {word rest : List Token}
      (none : ∀ drafts, ¬ Phrase.Source tokens drafts) (split : tokens = word ++ rest)
      (place : failure.place = word.length) (viable : Phrase.Source.Viable word)
      (stuck : ∀ token after, rest = token :: after → ¬ Phrase.Source.Viable (word ++ [token]))
      (wanted : Wanted word rest failure.wants) : SourceRead tokens (.fail failure)

/-- Behind the longest row of symbols the input should have ended. -/
theorem rejected_at {word after : List Token} {token : Token} {drafts : List Draft}
    {missed : Option Failure} (holds : Phrase.Source word drafts)
    (longest : ∀ word' rest' drafts', word ++ token :: after = word' ++ rest' →
      Phrase.Source word' drafts' → word'.length ≤ word.length ∨ Blocked word' rest')
    (furthest : Furthest Phrase.Source (word ++ token :: after)
      (Failure.reach word.length missed)) :
    SourceRead (word ++ token :: after) (.fail ((Failure.reach word.length missed).further
      (Failure.shift word.length ⟨0, [.endOfInput]⟩))) := by
  have none : ∀ drafts, ¬ Phrase.Source (word ++ token :: after) drafts := by
    intro drafts' whole
    rcases longest _ [] drafts' (List.append_nil _).symm whole with shorter | blocked
    · simp only [List.length_append, List.length_cons] at shorter
      omega
    · exact nomatch blocked.2
  have reached := Failure.le_reach_place word.length missed
  obtain ⟨word', rest, split, place, viable, stuck, listed⟩ := furthest
  have ended : (Failure.shift word.length ⟨0, [.endOfInput]⟩).place = word.length := rfl
  rcases Nat.lt_or_eq_of_le reached with later | level
  · rw [Failure.further_of_gt (by rw [ended]; exact later)]
    refine .rejected none split place viable stuck
      ⟨listed.tokens, fun free => ?_, fun behind => ?_, listed.fixed, listed.classes⟩
    · rw [listed.ending]
      constructor
      · exact fun blocked => absurd blocked.1 free
      · rintro ⟨drafts', whole⟩
        rcases longest word' rest drafts' split whole with shorter | blocked
        · omega
        · exact absurd blocked.1 free
    · rw [listed.ending]
      exact ⟨And.right, fun brace => ⟨behind, brace⟩⟩
  · rw [Failure.further_of_eq (by rw [ended]; exact level.symm)]
    have same : word' = word :=
      (List.append_inj split (level.trans place)).1.symm
    subst same
    refine .rejected none split place viable stuck ⟨?_, ?_,
      fun behind => absurd behind (Phrase.source_not_behind_guard holds), ?_, ?_⟩
    · intro token
      rw [← listed.tokens token]
      simp [Failure.shift, or_and_right, exists_or, Want.Admits]
    · intro _
      simp only [Failure.shift, List.mem_append, List.mem_singleton, or_true, true_iff]
      exact ⟨drafts, holds⟩
    · intro token member
      apply listed.fixed token
      simpa [Failure.shift] using member
    · intro left right member member'
      apply listed.classes left right
      · simpa [Failure.shift] using member
      · simpa [Failure.shift] using member'

theorem source_read (tokens : List Token) : SourceRead tokens (source tokens) := by
  have reads := (symbols_reader (tokens.length + 1)).reads tokens (Nat.lt_succ_self _)
  unfold source Rule.closedBy Rule.map Rule.both
  generalize symbols tokens = outcome at reads
  cases reads with
  | fail none furthest => exact absurd Phrase.source_nil (none [] tokens [] rfl)
  | @ok word rest drafts missed split holds free longest only furthest =>
      subst split
      dsimp only
      rw [List.drop_left]
      cases rest with
      | nil =>
          rw [List.append_nil]
          cases missed with
          | none => exact .accepted holds only
          | some missed => exact .accepted holds only
      | cons token after =>
          have result := rejected_at holds longest furthest
          rw [← Failure.further_shift_eq] at result
          exact result

theorem Phrase.source_unique {word : List Token} {drafts drafts' : List Draft}
    (holds : Source word drafts) (holds' : Source word drafts') : drafts = drafts' := by
  have result := source_read word
  generalize Grammar.source word = outcome at result
  cases result with
  | accepted _ only => rw [only drafts holds, only drafts' holds']
  | rejected none => exact absurd holds (none drafts)

theorem accepts_iff {tokens : List Token} :
    Accepts tokens ↔ ∃ drafts, Phrase.Source tokens drafts := by
  have result := source_read tokens
  unfold Accepts
  generalize source tokens = outcome at result
  cases result with
  | @accepted drafts missed holds only => exact ⟨fun _ => ⟨drafts, holds⟩, fun _ => ⟨_, _, _, rfl⟩⟩
  | rejected none => exact ⟨nofun, fun ⟨drafts, holds⟩ => absurd holds (none drafts)⟩

theorem continues_iff {front : List Token} : Continues front ↔ Phrase.Source.Viable front := by
  simp only [Continues, accepts_iff, Viable]

/-- The grammar accepts what can be derived, as a whole and with what it stands for; a list has one
denotation at most, and it is rejected only if it has none. -/
theorem accepts_iff_derivable (tokens : List Token) :
    (∀ drafts, (∃ missed, source tokens = .ok drafts tokens.length missed) ↔
      Phrase.Source tokens drafts) ∧
    (Accepts tokens ↔ ∃ drafts, Phrase.Source tokens drafts) ∧
    ((∃ failure, source tokens = .fail failure) ↔ ∀ drafts, ¬ Phrase.Source tokens drafts) ∧
    ∀ drafts drafts', Phrase.Source tokens drafts → Phrase.Source tokens drafts' →
      drafts = drafts' := by
  have accepted := @accepts_iff tokens
  have result := source_read tokens
  generalize source tokens = outcome at result
  cases result with
  | @accepted drafts missed holds only =>
      refine ⟨fun drafts' => ⟨?_, fun holds' => ?_⟩, accepted, ⟨nofun, fun none => ?_⟩, ?_⟩
      · rintro ⟨missed', same⟩
        obtain rfl := (Outcome.ok.inj same).1
        exact holds
      · exact ⟨missed, by rw [only drafts' holds']⟩
      · exact absurd holds (none drafts)
      · intro left right holds' holds''
        rw [only left holds', only right holds'']
  | rejected none =>
      refine ⟨fun drafts => ⟨nofun, fun holds => ?_⟩, accepted, ⟨fun _ => none, fun _ => ⟨_, rfl⟩⟩,
        ?_⟩
      · exact absurd holds (none drafts)
      · exact fun drafts _ holds => absurd holds (none drafts)

end KernelMenu.Grammar

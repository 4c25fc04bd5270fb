import KernelMenu.Proofs.ChoiceError

/-!
Drafts whose choices carry the places at which they begin. They can be sorted from the front, and
given up at the first choice without a prompt with the place that it carries. What comes out is the
same as if the place had been looked up by the number of the choice.
-/

namespace KernelMenu

open Grammar Phrase Outline

abbrev PlacedDraft := Outline ConfigClauses MenuClauses (ChoiceClauses × Nat)

namespace PlacedDraft

def draft : PlacedDraft → Draft := fold {
  entry := .entry
  menu := .menu
  choice head options := .choice head.1 options }

def sortedChoice (head : ChoiceClauses × Nat) : Except Nat Choice :=
  match head.1.sorted? with
  | some sorted => .ok sorted
  | none => .error head.2

mutual

/-- The symbol of a draft, or the place of the first choice at fault. The clauses of a choice are
looked at before its options, and nothing is looked at behind a fault. -/
def build : PlacedDraft → Except Nat Symbol
  | .entry head children => (buildAll children).map (.entry head.sorted)
  | .menu head children => (buildAll children).map (.menu head.heading)
  | .choice head options =>
      (sortedChoice head).bind fun choice => (buildOptions options).map (.choice choice)

def buildAll : List PlacedDraft → Except Nat (List Symbol)
  | [] => .ok []
  | first :: rest => (build first).bind fun symbol => (buildAll rest).map (symbol :: ·)

def buildOptions :
    List (ConfigClauses × List PlacedDraft) → Except Nat (List (Config × List Symbol))
  | [] => .ok []
  | (head, children) :: options => (buildAll children).bind fun symbols =>
      (buildOptions options).map ((head.sorted, symbols) :: ·)

end

/-- The place of a choice without a prompt. -/
def fault? (head : ChoiceClauses × Nat) : Option Nat :=
  if head.1.prompt?.isNone then some head.2 else none

/-- A result with places beside one without: both are the same value, or both are missing and the
place is that of the first fault. -/
inductive Agrees {Value : Type} : Except Nat Value → Option Value → Option Nat → Prop
  | built (value : Value) : Agrees (.ok value) (some value) none
  | failed (start : Nat) : Agrees (.error start) none (some start)

namespace Agrees

variable {Value Value' : Type} {outcome : Except Nat Value} {value? : Option Value}
  {place? place'? : Option Nat}

theorem ok {value : Value} (agrees : Agrees outcome (some value) place?) : outcome = .ok value := by
  cases agrees with
  | built => rfl

theorem error {start : Nat} (agrees : Agrees outcome value? (some start)) :
    outcome = .error start := by
  cases agrees with
  | failed => rfl

theorem map (agrees : Agrees outcome value? place?) (change : Value → Value') :
    Agrees (outcome.map change) (value?.map change) place? := by
  cases agrees with
  | built value => exact .built (change value)
  | failed start => exact .failed start

theorem bind (agrees : Agrees outcome value? place?) {next : Value → Except Nat Value'}
    {next? : Value → Option Value'} (others : ∀ value, Agrees (next value) (next? value) place'?) :
    Agrees (outcome.bind next) (value?.bind next?) (place?.or place'?) := by
  cases agrees with
  | built value => exact others value
  | failed start => exact .failed start

theorem choice (head : ChoiceClauses × Nat) :
    Agrees (sortedChoice head) head.1.sorted? (fault? head) := by
  rw [sortedChoice, fault?]
  cases prompt : head.1.prompt? with
  | none =>
      rw [Draft.sorted_eq_none_iff.2 prompt]
      exact .failed head.2
  | some text =>
      cases sorted : head.1.sorted? with
      | none =>
          rw [Draft.sorted_eq_none_iff.1 sorted] at prompt
          cases prompt
      | some result => exact .built result

end Agrees

theorem draft_entry (head : ConfigClauses) (children : List PlacedDraft) :
    draft (.entry head children) = .entry head (children.map draft) :=
  fold_entry _ head children

theorem draft_menu (head : MenuClauses) (children : List PlacedDraft) :
    draft (.menu head children) = .menu head (children.map draft) :=
  fold_menu _ head children

theorem draft_choice (head : ChoiceClauses × Nat)
    (options : List (ConfigClauses × List PlacedDraft)) :
    draft (.choice head options) =
      .choice head.1 (options.map fun option => (option.1, option.2.map draft)) :=
  fold_choice _ head options

theorem below_cons (first : Draft) (rest : List Draft) : Draft.below (first :: rest) =
    (Draft.symbol? first).bind fun symbol => (Draft.below rest).map (symbol :: ·) := by
  rw [Draft.below, List.map_cons, List.mapM_cons]
  cases Draft.symbol? first with
  | none => rfl
  | some symbol => exact Option.map_eq_bind.symm

theorem find_fault_cons (head : ChoiceClauses × Nat) (heads : List (ChoiceClauses × Nat)) :
    (head :: heads).findSome? fault? = (fault? head).or (heads.findSome? fault?) := by
  rw [List.findSome?_cons]
  cases fault? head <;> rfl

theorem agrees_all {placed : List PlacedDraft}
    (each : ∀ child ∈ placed, Agrees child.build (Draft.symbol? child.draft)
      (child.choices.findSome? fault?)) :
    Agrees (buildAll placed) (Draft.below (placed.map draft))
      ((placed.flatMap choices).findSome? fault?) := by
  induction placed with
  | nil => exact .built []
  | cons first rest induction =>
      have others := induction fun child member => each child (List.mem_cons_of_mem _ member)
      rw [buildAll, List.map_cons, below_cons, List.flatMap_cons, List.findSome?_append]
      exact (each first List.mem_cons_self).bind fun symbol => others.map (symbol :: ·)

theorem agrees_options {options : List (ConfigClauses × List PlacedDraft)}
    (each : ∀ option ∈ options, ∀ child ∈ option.2, Agrees child.build (Draft.symbol? child.draft)
      (child.choices.findSome? fault?)) :
    Agrees (buildOptions options)
      ((options.map fun option => (option.1, option.2.map draft)).mapM fun option =>
        (Draft.below option.2).map fun children => (option.1.sorted, children))
      ((options.flatMap fun option => option.2.flatMap choices).findSome? fault?) := by
  induction options with
  | nil => exact .built []
  | cons option options induction =>
      obtain ⟨head, children⟩ := option
      have own := agrees_all (each _ List.mem_cons_self)
      have others := induction fun other member => each other (List.mem_cons_of_mem _ member)
      rw [buildOptions, List.map_cons, List.mapM_cons, List.flatMap_cons, List.findSome?_append]
      have both := own.bind fun symbols => others.map ((head.sorted, symbols) :: ·)
      cases below : Draft.below (children.map draft) with
      | none => simpa [below] using both
      | some symbols => simpa [below, Option.map_eq_bind, Function.comp_def] using both

theorem agrees (placed : PlacedDraft) : Agrees placed.build (Draft.symbol? placed.draft)
    (placed.choices.findSome? fault?) := by
  induction placed using Outline.induct with
  | atEntry head children induction =>
      rw [build, draft_entry, Draft.symbol_entry, choices_entry]
      exact (agrees_all induction).map _
  | atMenu head children induction =>
      rw [build, draft_menu, Draft.symbol_menu, choices_menu]
      exact (agrees_all induction).map _
  | atChoice head options induction =>
      rw [build, draft_choice, Draft.symbol_choice, choices_choice, find_fault_cons,
        List.flatMap_map]
      simp only [choices_entry]
      exact (Agrees.choice head).bind fun choice => (agrees_options induction).map _

theorem flat_map_draft {placed : List PlacedDraft}
    (each : ∀ child ∈ placed, child.draft.choices = child.choices.map Prod.fst) :
    (placed.map draft).flatMap choices = (placed.flatMap choices).map Prod.fst := by
  rw [List.flatMap_map, List.map_flatMap]
  exact List.flatMap_congr each

theorem choices_draft (placed : PlacedDraft) :
    placed.draft.choices = placed.choices.map Prod.fst := by
  induction placed using Outline.induct with
  | atEntry head children induction =>
      rw [draft_entry, choices_entry, choices_entry, flat_map_draft induction]
  | atMenu head children induction =>
      rw [draft_menu, choices_menu, choices_menu, flat_map_draft induction]
  | atChoice head options induction =>
      rw [draft_choice, choices_choice, choices_choice, List.map_cons]
      simp only [List.flatMap_map, List.map_flatMap, choices_entry]
      refine congrArg (head.1 :: ·) (List.flatMap_congr fun option member => ?_)
      rw [← List.flatMap_map, flat_map_draft (induction option member), List.map_flatMap]

theorem find_fault_eq (heads : List (ChoiceClauses × Nat)) : heads.findSome? fault? =
    ((heads.map Prod.fst).findIdx? fun head => head.prompt?.isNone).bind fun number =>
      heads[number]?.map Prod.snd := by
  induction heads with
  | nil => rfl
  | cons head heads induction =>
      rw [find_fault_cons, List.map_cons, List.findIdx?_cons, fault?]
      split
      case isTrue => rfl
      case isFalse => rw [Option.none_or, induction, Option.bind_map]; rfl

theorem build_all_agrees (placed : List PlacedDraft) : Agrees (buildAll placed)
    ((placed.map draft).mapM Draft.symbol?) ((placed.flatMap choices).findSome? fault?) := by
  have agrees := agrees_all fun child (_ : child ∈ placed) => child.agrees
  rwa [Draft.below, List.mapM_map] at agrees

theorem build_all_ok {placed : List PlacedDraft} {symbols : List Symbol}
    (sorted : Draft.symbols (placed.map draft) = .ok symbols) : buildAll placed = .ok symbols := by
  have agrees := build_all_agrees placed
  rw [Draft.symbols_eq_ok_iff.1 sorted] at agrees
  exact agrees.ok

/-- The place that is told is that of the choice whose number is told without places. -/
theorem build_all_error {placed : List PlacedDraft} {number : Nat}
    (failed : Draft.symbols (placed.map draft) = .error number) : ∃ head start,
      (placed.flatMap choices)[number]? = some (head, start) ∧ buildAll placed = .error start := by
  have numbered := Draft.symbols_eq_error_iff.1 failed
  rw [Draft.promptlessChoice?, flat_map_draft fun child _ => child.choices_draft] at numbered
  obtain ⟨bound, -⟩ := List.findIdx?_eq_some_iff_getElem.1 numbered
  rw [List.length_map] at bound
  have listed := List.getElem?_eq_getElem bound
  have agrees := build_all_agrees placed
  rw [find_fault_eq, numbered, Option.bind_some, listed] at agrees
  exact ⟨_, _, listed, agrees.error⟩

/-- Any places can be given to the choices, one to each. -/
def Placeable (draft : Draft) : Prop :=
  ∀ places : List Nat, places.length = draft.choices.length →
    ∃ placed : PlacedDraft, placed.draft = draft ∧ placed.choices.map Prod.snd = places

theorem exists_parts {Item : Type} {places : List Nat} {front back : List Item}
    (length : places.length = (front ++ back).length) : ∃ early late,
      places = early ++ late ∧ early.length = front.length ∧ late.length = back.length := by
  rw [List.length_append] at length
  refine ⟨places.take front.length, places.drop front.length, ?_, ?_, ?_⟩
  · exact (List.take_append_drop front.length places).symm
  · rw [List.length_take]
    omega
  · rw [List.length_drop]
    omega

theorem exists_all {drafts : List Draft} (each : ∀ draft ∈ drafts, Placeable draft)
    {places : List Nat} (length : places.length = (drafts.flatMap choices).length) :
    ∃ placed : List PlacedDraft, placed.map draft = drafts ∧
      (placed.flatMap choices).map Prod.snd = places := by
  induction drafts generalizing places with
  | nil => exact ⟨[], rfl, (List.length_eq_zero_iff.1 length).symm⟩
  | cons first rest induction =>
      obtain ⟨early, late, rfl, length, length'⟩ := exists_parts length
      obtain ⟨placed, rfl, same⟩ := each first List.mem_cons_self early length
      obtain ⟨others, rfl, same'⟩ :=
        induction (fun draft member => each draft (List.mem_cons_of_mem _ member)) length'
      refine ⟨placed :: others, rfl, ?_⟩
      rw [List.flatMap_cons, List.map_append, same, same']

theorem exists_options {options : List (ConfigClauses × List Draft)}
    (each : ∀ option ∈ options, ∀ child ∈ option.2, Placeable child) {places : List Nat}
    (length : places.length = (options.flatMap fun option => option.2.flatMap choices).length) :
    ∃ placed : List (ConfigClauses × List PlacedDraft),
      (placed.map fun option => (option.1, option.2.map draft)) = options ∧
      (placed.flatMap fun option => option.2.flatMap choices).map Prod.snd = places := by
  induction options generalizing places with
  | nil => exact ⟨[], rfl, (List.length_eq_zero_iff.1 length).symm⟩
  | cons option options induction =>
      obtain ⟨early, late, rfl, length, length'⟩ := exists_parts length
      obtain ⟨placed, children, same⟩ := exists_all (each option List.mem_cons_self) length
      obtain ⟨others, rfl, same'⟩ :=
        induction (fun option member => each option (List.mem_cons_of_mem _ member)) length'
      refine ⟨(option.1, placed) :: others, ?_, ?_⟩
      · rw [List.map_cons, children]
      · rw [List.flatMap_cons, List.map_append, same, same']

theorem placeable (draft : Draft) : Placeable draft := by
  induction draft using Outline.induct with
  | atEntry head children induction =>
      intro places length
      rw [choices_entry] at length
      obtain ⟨placed, rfl, same⟩ := exists_all induction length
      exact ⟨.entry head placed, draft_entry head placed, by rw [choices_entry, same]⟩
  | atMenu head children induction =>
      intro places length
      rw [choices_menu] at length
      obtain ⟨placed, rfl, same⟩ := exists_all induction length
      exact ⟨.menu head placed, draft_menu head placed, by rw [choices_menu, same]⟩
  | atChoice head options induction =>
      intro places length
      rw [choices_choice, List.flatMap_map, List.length_cons] at length
      simp only [choices_entry] at length
      obtain ⟨start, places, rfl⟩ := List.exists_cons_of_length_eq_add_one length
      obtain ⟨placed, rfl, same⟩ := exists_options induction (Nat.succ.inj length)
      refine ⟨.choice (head, start) placed, draft_choice (head, start) placed, ?_⟩
      rw [choices_choice, List.flatMap_map, List.map_cons]
      simp only [choices_entry, same]

/-- The drafts carry the places of a source: each choice that of the keyword of its block. -/
structure PlacedIn (lexemes : List Lexeme) (drafts : List Draft) (placed : List PlacedDraft) :
    Prop where
  drafts : placed.map draft = drafts
  starts : ∀ number head start, (placed.flatMap choices)[number]? = some (head, start) →
    ∃ front lexeme, ChoiceBlock (lexemes.map Lexeme.token) front head.properties ∧
      choicesIn front = number ∧ lexemes[front.length]? = some lexeme ∧ lexeme.start = start

theorem exists_placed_in {lexemes : List Lexeme} {drafts : List Draft}
    (holds : Source (lexemes.map Lexeme.token) drafts) :
    ∃ placed, PlacedIn lexemes drafts placed := by
  let keywords := lexemes.filter fun lexeme => lexeme.token = .keyword .choice
  have length : (keywords.map Lexeme.start).length = (drafts.flatMap choices).length := by
    rw [← choices_in_source holds, choicesIn, List.count, List.countP_map, List.length_map,
      ← List.countP_eq_length_filter]
    rfl
  obtain ⟨placed, drafts', starts⟩ := exists_all (fun draft _ => placeable draft) length
  refine ⟨placed, drafts', fun number head start listed => ?_⟩
  have chosen : (drafts.flatMap choices)[number]? = some head := by
    rw [← drafts', flat_map_draft fun child _ => child.choices_draft, List.getElem?_map, listed]
    rfl
  obtain ⟨front, block, rfl⟩ := choice_blocks holds chosen
  obtain ⟨rest, split⟩ := block.split
  obtain ⟨lexeme, found, -, told⟩ := Lexeme.start_of_choice "" split
  refine ⟨front, lexeme, block, rfl, found, ?_⟩
  have start' : (keywords.map Lexeme.start)[choicesIn front]? = some start := by
    rw [← starts, List.getElem?_map, listed]
    rfl
  rw [List.getElem?_map] at start'
  obtain ⟨keyword, listed', rfl⟩ := Option.map_eq_some_iff.1 start'
  rw [← told, Lexeme.startOf, listed']

end PlacedDraft

/-- An accepted source is sorted as its drafts are that carry their places. -/
theorem Root.parse_eq_build {source : String} {lexemes : List Lexeme} {drafts : List Draft}
    {placed : List PlacedDraft} (scanned : Lexeme.ofSource source = .ok lexemes)
    (holds : Source (lexemes.map Lexeme.token) drafts)
    (placedIn : PlacedDraft.PlacedIn lexemes drafts placed) :
    parse source = match PlacedDraft.buildAll placed with
      | .ok symbols => .ok (.ofChildren symbols)
      | .error start => .error ⟨Position.ofOffset source start, .promptlessChoice⟩ := by
  rw [parse_of_accepted scanned holds, ← placedIn.drafts]
  cases sorted : Draft.symbols (placed.map PlacedDraft.draft) with
  | ok symbols => rw [PlacedDraft.build_all_ok sorted]
  | error number =>
      obtain ⟨head, start, listed, failed⟩ := PlacedDraft.build_all_error sorted
      obtain ⟨front, lexeme, block, rfl, found, rfl⟩ := placedIn.starts number head start listed
      obtain ⟨rest, split⟩ := block.split
      obtain ⟨lexeme', found', -, told⟩ := Lexeme.start_of_choice source split
      obtain rfl := Option.some.inj (found.symm.trans found')
      rw [failed]
      dsimp only [ParseError.ofPromptlessChoice]
      rw [told]

end KernelMenu

import KernelMenu.Proofs.DraftSorting
import Mathlib.Data.List.Forall2

/-!
The nodes of a menu in the order in which they are written down: a node before what stands below it,
and what stands beside each other from left to right. Sorting the clauses of a draft leaves this
order as it is.
-/

namespace KernelMenu

namespace Outline

variable {Entry Menu Choice : Type}

inductive Head (Entry Menu Choice : Type) where
  | entry (head : Entry)
  | menu (head : Menu)
  | choice (head : Choice)
deriving DecidableEq, Repr

namespace Head

def entry? : Head Entry Menu Choice → Option Entry
  | entry head => some head
  | _ => none

def choice? : Head Entry Menu Choice → Option Choice
  | choice head => some head
  | _ => none

end Head

/-- The heads of all nodes, each before those below it. -/
def heads : Outline Entry Menu Choice → List (Head Entry Menu Choice) := fold {
  entry head children := .entry head :: children.flatten
  menu head children := .menu head :: children.flatten
  choice head options :=
    .choice head :: (options.map fun option => .entry option.1 :: option.2.flatten).flatten }

theorem heads_entry (head : Entry) (children : List (Outline Entry Menu Choice)) :
    heads (.entry head children) = .entry head :: children.flatMap heads := by
  rw [heads, fold_entry]
  rfl

theorem heads_menu (head : Menu) (children : List (Outline Entry Menu Choice)) :
    heads (.menu head children) = .menu head :: children.flatMap heads := by
  rw [heads, fold_menu]
  rfl

theorem heads_choice (head : Choice) (options : List (Entry × List (Outline Entry Menu Choice))) :
    heads (.choice head options) = .choice head ::
      (options.map fun option => Outline.entry option.1 option.2).flatMap heads := by
  rw [heads, fold_choice]
  simp only [List.map_map, List.flatMap_def, List.cons.injEq, true_and]
  apply congrArg List.flatten
  apply List.map_congr_left
  intro option _
  exact (heads_entry option.1 option.2).symm

theorem foldr_size {children : List (Outline Entry Menu Choice)}
    (each : ∀ child ∈ children, child.size = child.heads.length) (start : Nat) :
    (children.map size).foldr Nat.add start = (children.flatMap heads).length + start := by
  induction children with
  | nil => exact (Nat.zero_add start).symm
  | cons child children induction =>
      have others := induction fun other member => each other (List.mem_cons_of_mem _ member)
      rw [List.map_cons, List.foldr_cons, others, each child List.mem_cons_self, List.flatMap_cons,
        List.length_append, Nat.add_assoc]
      rfl

theorem foldr_options {options : List (Entry × List (Outline Entry Menu Choice))}
    (each : ∀ option ∈ options, ∀ child ∈ option.2, child.size = child.heads.length) :
    (options.map fun option => (option.1, option.2.map size)).foldr
        (fun option count => option.2.foldr Nat.add (count + 1)) 1 =
      ((options.map fun option => Outline.entry option.1 option.2).flatMap heads).length + 1 := by
  induction options with
  | nil => rfl
  | cons option options induction =>
      have others := induction fun other member => each other (List.mem_cons_of_mem _ member)
      have own := each option List.mem_cons_self
      simp only [List.map_cons, List.foldr_cons, List.flatMap_cons, List.length_append, heads_entry,
        List.length_cons]
      rw [others, foldr_size own]
      omega

theorem size_eq_length (node : Outline Entry Menu Choice) : node.size = node.heads.length := by
  induction node using Outline.induct with
  | atEntry head children induction =>
      rw [heads_entry, List.length_cons, ← foldr_size induction, size, fold_entry]
  | atMenu head children induction =>
      rw [heads_menu, List.length_cons, ← foldr_size induction, size, fold_menu]
  | atChoice head options induction =>
      rw [heads_choice, List.length_cons, ← foldr_options induction, size, fold_choice]

theorem flat_map_choices {children : List (Outline Entry Menu Choice)}
    (each : ∀ child ∈ children, child.choices = child.heads.filterMap Head.choice?) :
    children.flatMap choices = (children.flatMap heads).filterMap Head.choice? := by
  induction children with
  | nil => rfl
  | cons child children induction =>
      have others := induction fun other member => each other (List.mem_cons_of_mem _ member)
      rw [List.flatMap_cons, List.flatMap_cons, List.filterMap_append, others,
        each child List.mem_cons_self]

theorem choices_entry (head : Entry) (children : List (Outline Entry Menu Choice)) :
    choices (.entry head children) = children.flatMap choices := by
  rw [choices, fold_entry]
  rfl

theorem choices_menu (head : Menu) (children : List (Outline Entry Menu Choice)) :
    choices (.menu head children) = children.flatMap choices := by
  rw [choices, fold_menu]
  rfl

theorem choices_choice (head : Choice)
    (options : List (Entry × List (Outline Entry Menu Choice))) :
    choices (.choice head options) = head ::
      (options.map fun option => Outline.entry option.1 option.2).flatMap choices := by
  rw [choices, fold_choice]
  simp only [List.map_map, List.flatMap_def, List.cons.injEq, true_and]
  apply congrArg List.flatten
  apply List.map_congr_left
  intro option _
  exact (choices_entry option.1 option.2).symm

theorem choices_eq (node : Outline Entry Menu Choice) :
    node.choices = node.heads.filterMap Head.choice? := by
  induction node using Outline.induct with
  | atEntry head children induction =>
      rw [choices_entry, heads_entry, flat_map_choices induction]
      rfl
  | atMenu head children induction =>
      rw [choices_menu, heads_menu, flat_map_choices induction]
      rfl
  | atChoice head options induction =>
      rw [choices_choice, heads_choice, flat_map_choices]
      · rfl
      · intro child member
        obtain ⟨option, inside, rfl⟩ := List.mem_map.1 member
        rw [choices_entry, heads_entry, flat_map_choices (induction option inside)]
        rfl

end Outline

open Outline

/-- A node of a tree without what stands below it. -/
abbrev Node := Head Config (Guarded String) Choice

/-- All nodes of a tree, each before those below it. -/
def Root.nodes (root : Root) : List Node := root.children.flatMap heads

theorem Root.size_eq_length (root : Root) : root.size = root.nodes.length := by
  rw [Root.size, foldr_size fun child _ => child.size_eq_length, Nat.add_zero, Root.nodes]

/-- The head of a node of the tree is what the head of the draft becomes. -/
inductive Draft.Sorted : Head ConfigClauses MenuClauses ChoiceClauses → Node → Prop
  | entry (head : ConfigClauses) : Sorted (.entry head) (.entry head.sorted)
  | menu (head : MenuClauses) : Sorted (.menu head) (.menu head.heading)
  | choice {head : ChoiceClauses} {choice : Choice} :
      head.sorted? = some choice → Sorted (.choice head) (.choice choice)

theorem forall_of_map_m {Source Target : Type} {change : Source → Option Target}
    {related : Source → Target → Prop} {values : List Source} {results : List Target}
    (changed : values.mapM change = some results)
    (each : ∀ value ∈ values, ∀ result, change value = some result → related value result) :
    List.Forall₂ related values results := by
  induction values generalizing results with
  | nil =>
      obtain rfl := Option.some.inj changed
      exact .nil
  | cons value values induction =>
      rw [List.mapM_cons] at changed
      obtain ⟨first, found, changed⟩ := Option.bind_eq_some_iff.1 changed
      obtain ⟨others, found', same⟩ := Option.bind_eq_some_iff.1 changed
      obtain rfl := Option.some.inj same
      refine .cons (each value List.mem_cons_self first found) (induction found' ?_)
      exact fun other member => each other (List.mem_cons_of_mem _ member)

namespace Draft

theorem sorted_flat_map {drafts : List Draft} {symbols : List Symbol}
    (related : List.Forall₂ (fun draft symbol => List.Forall₂ Sorted draft.heads symbol.heads)
      drafts symbols) :
    List.Forall₂ Sorted (drafts.flatMap heads) (symbols.flatMap heads) :=
  List.rel_flatMap related fun _ _ same => same

theorem sorted_below {drafts : List Draft} {symbols : List Symbol}
    (found : below drafts = some symbols)
    (each : ∀ draft ∈ drafts, ∀ symbol, symbol? draft = some symbol →
      List.Forall₂ Sorted draft.heads symbol.heads) :
    List.Forall₂ Sorted (drafts.flatMap heads) (symbols.flatMap heads) := by
  rw [below, List.mapM_map] at found
  exact sorted_flat_map (forall_of_map_m found each)

theorem sorted_heads (draft : Draft) : ∀ symbol, symbol? draft = some symbol →
    List.Forall₂ Sorted draft.heads symbol.heads := by
  induction draft using Outline.induct with
  | atEntry head children induction =>
      intro symbol found
      rw [symbol_entry] at found
      obtain ⟨symbols, inside, rfl⟩ := Option.map_eq_some_iff.1 found
      rw [heads_entry, heads_entry]
      exact .cons (.entry head) (sorted_below inside induction)
  | atMenu head children induction =>
      intro symbol found
      rw [symbol_menu] at found
      obtain ⟨symbols, inside, rfl⟩ := Option.map_eq_some_iff.1 found
      rw [heads_menu, heads_menu]
      exact .cons (.menu head) (sorted_below inside induction)
  | atChoice head options induction =>
      intro symbol found
      rw [symbol_choice] at found
      obtain ⟨choice, sorted, found⟩ := Option.bind_eq_some_iff.1 found
      obtain ⟨results, changed, rfl⟩ := Option.map_eq_some_iff.1 found
      rw [heads_choice, heads_choice]
      refine .cons (.choice sorted) (sorted_flat_map ?_)
      rw [List.forall₂_map_left_iff, List.forall₂_map_right_iff]
      apply forall_of_map_m changed
      intro option member result converted
      obtain ⟨symbols, inside, rfl⟩ := Option.map_eq_some_iff.1 converted
      rw [heads_entry, heads_entry]
      exact .cons (.entry option.1) (sorted_below inside (induction option member))

theorem sorted_symbols {drafts : List Draft} {symbols : List Symbol}
    (found : drafts.mapM symbol? = some symbols) :
    List.Forall₂ Sorted (drafts.flatMap heads) (symbols.flatMap heads) :=
  sorted_flat_map (forall_of_map_m found fun draft _ => draft.sorted_heads)

end Draft

end KernelMenu

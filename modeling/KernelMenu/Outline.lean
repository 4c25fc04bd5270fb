/-!
The shape of a menu: entries and submenus with children below them, and choices whose options are
entries. What a node says of itself is its head, of a type of its own for each kind of node.

A traversal is an `Algebra`, which says what to make of each node once its children are done;
`Outline.fold` runs it, and `Outline.induct` is the induction that goes with it.
-/

namespace KernelMenu

inductive Outline (Entry Menu Choice : Type) where
  | entry (head : Entry) (children : List (Outline Entry Menu Choice))
  | menu (head : Menu) (children : List (Outline Entry Menu Choice))
  | choice (head : Choice) (options : List (Entry × List (Outline Entry Menu Choice)))
deriving Repr

/-- What a traversal makes of each kind of node, given the results for what stands below it. -/
structure Algebra (Entry Menu Choice Result : Type) where
  entry : Entry → List Result → Result
  menu : Menu → List Result → Result
  choice : Choice → List (Entry × List Result) → Result

namespace Outline

variable {Entry Menu Choice Result : Type}

mutual

def fold (algebra : Algebra Entry Menu Choice Result) : Outline Entry Menu Choice → Result
  | entry head children => algebra.entry head (foldList algebra children)
  | menu head children => algebra.menu head (foldList algebra children)
  | choice head options => algebra.choice head (foldOptions algebra options)

def foldList (algebra : Algebra Entry Menu Choice Result) :
    List (Outline Entry Menu Choice) → List Result
  | [] => []
  | node :: nodes => fold algebra node :: foldList algebra nodes

def foldOptions (algebra : Algebra Entry Menu Choice Result) :
    List (Entry × List (Outline Entry Menu Choice)) → List (Entry × List Result)
  | [] => []
  | (head, children) :: options => (head, foldList algebra children) :: foldOptions algebra options

end

theorem fold_list_eq_map (algebra : Algebra Entry Menu Choice Result)
    (nodes : List (Outline Entry Menu Choice)) :
    foldList algebra nodes = nodes.map (fold algebra) := by
  induction nodes with
  | nil => rfl
  | cons node nodes induction => rw [foldList, induction, List.map_cons]

theorem fold_options_eq_map (algebra : Algebra Entry Menu Choice Result)
    (options : List (Entry × List (Outline Entry Menu Choice))) :
    foldOptions algebra options =
      options.map fun option => (option.1, option.2.map (fold algebra)) := by
  induction options with
  | nil => rfl
  | cons option options induction =>
      obtain ⟨head, children⟩ := option
      rw [foldOptions, induction, fold_list_eq_map, List.map_cons]

theorem fold_entry (algebra : Algebra Entry Menu Choice Result) (head : Entry)
    (children : List (Outline Entry Menu Choice)) :
    fold algebra (entry head children) = algebra.entry head (children.map (fold algebra)) := by
  rw [fold, fold_list_eq_map]

theorem fold_menu (algebra : Algebra Entry Menu Choice Result) (head : Menu)
    (children : List (Outline Entry Menu Choice)) :
    fold algebra (menu head children) = algebra.menu head (children.map (fold algebra)) := by
  rw [fold, fold_list_eq_map]

theorem fold_choice (algebra : Algebra Entry Menu Choice Result) (head : Choice)
    (options : List (Entry × List (Outline Entry Menu Choice))) :
    fold algebra (choice head options) = algebra.choice head
      (options.map fun option => (option.1, option.2.map (fold algebra))) := by
  rw [fold, fold_options_eq_map]

theorem induct {Holds : Outline Entry Menu Choice → Prop}
    (atEntry : ∀ head children, (∀ child ∈ children, Holds child) → Holds (.entry head children))
    (atMenu : ∀ head children, (∀ child ∈ children, Holds child) → Holds (.menu head children))
    (atChoice : ∀ head options, (∀ option ∈ options, ∀ child ∈ option.2, Holds child) →
      Holds (.choice head options))
    (node : Outline Entry Menu Choice) : Holds node :=
  @Outline.rec Entry Menu Choice Holds (fun nodes => ∀ node ∈ nodes, Holds node)
    (fun options => ∀ option ∈ options, ∀ child ∈ option.2, Holds child)
    (fun option => ∀ child ∈ option.2, Holds child) atEntry atMenu atChoice
    (fun _ member => absurd member List.not_mem_nil)
    (fun _ _ first rest _ member => by
      rcases List.mem_cons.1 member with same | member
      · exact same ▸ first
      · exact rest _ member)
    (fun _ member => absurd member List.not_mem_nil)
    (fun _ _ first rest _ member => by
      rcases List.mem_cons.1 member with same | member
      · exact same ▸ first
      · exact rest _ member)
    (fun _ _ below => below) node

def size : Outline Entry Menu Choice → Nat := fold {
  entry _ children := children.foldr Nat.add 1
  menu _ children := children.foldr Nat.add 1
  choice _ options :=
    options.foldr (fun option count => option.2.foldr Nat.add (count + 1)) 1 }

def choices : Outline Entry Menu Choice → List Choice := fold {
  entry _ children := children.flatten
  menu _ children := children.flatten
  choice head options := head :: (options.map fun option => option.2.flatten).flatten }

/-- Changes every head; nothing is left if one head of a choice cannot be changed. -/
def convert {Entry' Menu' Choice' : Type} (onEntry : Entry → Entry') (onMenu : Menu → Menu')
    (onChoice : Choice → Option Choice') :
    Outline Entry Menu Choice → Option (Outline Entry' Menu' Choice') := fold {
  entry head children := do some (.entry (onEntry head) (← children.mapM fun child => child))
  menu head children := do some (.menu (onMenu head) (← children.mapM fun child => child))
  choice head options := do
    some (.choice (← onChoice head) (← options.mapM fun option => do
      some (onEntry option.1, ← option.2.mapM fun child => child))) }

section Equality

variable [DecidableEq Entry] [DecidableEq Menu] [DecidableEq Choice]

mutual

def decideEq : (left right : Outline Entry Menu Choice) → Decidable (left = right)
  | entry head children, entry head' children' =>
      have := decideEqList children children'
      decidable_of_iff (head = head' ∧ children = children') (by simp)
  | menu head children, menu head' children' =>
      have := decideEqList children children'
      decidable_of_iff (head = head' ∧ children = children') (by simp)
  | choice head options, choice head' options' =>
      have := decideEqOptions options options'
      decidable_of_iff (head = head' ∧ options = options') (by simp)
  | entry _ _, menu _ _ | entry _ _, choice _ _ | menu _ _, entry _ _ | menu _ _, choice _ _
  | choice _ _, entry _ _ | choice _ _, menu _ _ => .isFalse (by simp)

def decideEqList : (left right : List (Outline Entry Menu Choice)) → Decidable (left = right)
  | [], [] => .isTrue rfl
  | node :: nodes, node' :: nodes' =>
      have := decideEq node node'
      have := decideEqList nodes nodes'
      decidable_of_iff (node = node' ∧ nodes = nodes') (by simp)
  | [], _ :: _ | _ :: _, [] => .isFalse (by simp)

def decideEqOptions : (left right : List (Entry × List (Outline Entry Menu Choice))) →
    Decidable (left = right)
  | [], [] => .isTrue rfl
  | (head, children) :: options, (head', children') :: options' =>
      have := decideEqList children children'
      have := decideEqOptions options options'
      decidable_of_iff ((head = head' ∧ children = children') ∧ options = options') (by simp)
  | [], _ :: _ | _ :: _, [] => .isFalse (by simp)

end

instance : DecidableEq (Outline Entry Menu Choice) := decideEq

end Equality

end Outline

end KernelMenu

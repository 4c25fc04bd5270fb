import KernelMenu.Proofs.NodeOrder

/-!
Where a node stands in a tree. The path to a node has a number for each step down, counted among the
nodes side by side, and the order of the paths is the one in which the nodes are written down.
-/

namespace KernelMenu

namespace Outline

variable {Entry Menu Choice : Type}

def head : Outline Entry Menu Choice → Head Entry Menu Choice
  | entry head _ => .entry head
  | menu head _ => .menu head
  | choice head _ => .choice head

/-- The nodes right below; the options of a choice are entries. -/
def nodesBelow : Outline Entry Menu Choice → List (Outline Entry Menu Choice)
  | entry _ children => children
  | menu _ children => children
  | choice _ options => options.map fun option => .entry option.1 option.2

theorem induct_below {Holds : Outline Entry Menu Choice → Prop}
    (step : ∀ node, (∀ child ∈ node.nodesBelow, Holds child) → Holds node)
    (node : Outline Entry Menu Choice) : Holds node := by
  induction node using Outline.induct with
  | atEntry head children induction => exact step (.entry head children) induction
  | atMenu head children induction => exact step (.menu head children) induction
  | atChoice head options induction =>
      refine step (.choice head options) fun child member => ?_
      obtain ⟨option, inside, rfl⟩ := List.mem_map.1 member
      exact step (.entry option.1 option.2) (induction option inside)

/-- The node at the end of a path. -/
def at? (node : Outline Entry Menu Choice) : List Nat → Option (Outline Entry Menu Choice)
  | [] => some node
  | place :: path => node.nodesBelow[place]?.bind fun child => child.at? path

mutual

/-- The node and all nodes below it, each with its path and before those below it. -/
def placed : Outline Entry Menu Choice → List (List Nat × Outline Entry Menu Choice)
  | entry head children => ([], entry head children) :: placedFrom 0 children
  | menu head children => ([], menu head children) :: placedFrom 0 children
  | choice head options => ([], choice head options) :: placedOptions 0 options

def placedFrom (place : Nat) :
    List (Outline Entry Menu Choice) → List (List Nat × Outline Entry Menu Choice)
  | [] => []
  | node :: nodes =>
      (placed node).map (fun found => (place :: found.1, found.2)) ++ placedFrom (place + 1) nodes

def placedOptions (place : Nat) : List (Entry × List (Outline Entry Menu Choice)) →
    List (List Nat × Outline Entry Menu Choice)
  | [] => []
  | (head, children) :: options =>
      (([], entry head children) :: placedFrom 0 children).map
          (fun found => (place :: found.1, found.2)) ++ placedOptions (place + 1) options

end

theorem placed_from_nil (place : Nat) :
    placedFrom place ([] : List (Outline Entry Menu Choice)) = [] := by
  rw [placedFrom]

theorem placed_from_cons (place : Nat) (node : Outline Entry Menu Choice)
    (nodes : List (Outline Entry Menu Choice)) : placedFrom place (node :: nodes) =
      (placed node).map (fun found => (place :: found.1, found.2)) ++
        placedFrom (place + 1) nodes := by
  rw [placedFrom]

theorem placed_options_eq (place : Nat)
    (options : List (Entry × List (Outline Entry Menu Choice))) : placedOptions place options =
      placedFrom place (options.map fun option => Outline.entry option.1 option.2) := by
  induction options generalizing place with
  | nil => rw [placedOptions, List.map_nil, placed_from_nil]
  | cons option options induction =>
      simp only [placedOptions, induction, List.map_cons, placed_from_cons, placed]

theorem placed_eq (node : Outline Entry Menu Choice) :
    node.placed = ([], node) :: placedFrom 0 node.nodesBelow := by
  cases node with
  | entry | menu => rw [placed, nodesBelow]
  | choice => rw [placed, nodesBelow, placed_options_eq]

variable {node found : Outline Entry Menu Choice} {nodes : List (Outline Entry Menu Choice)}
  {path : List Nat}

theorem mem_placed_from {start : Nat} : (path, found) ∈ placedFrom start nodes ↔
    ∃ place rest child, path = (start + place) :: rest ∧ nodes[place]? = some child ∧
      (rest, found) ∈ child.placed := by
  induction nodes generalizing start with
  | nil => simp [placed_from_nil]
  | cons node nodes induction =>
      rw [placed_from_cons, List.mem_append, induction]
      constructor
      · rintro (first | ⟨place, rest, child, rfl, inside, member⟩)
        · obtain ⟨⟨rest, other⟩, member, same⟩ := List.mem_map.1 first
          obtain ⟨rfl, rfl⟩ : start :: rest = path ∧ other = found := Prod.mk.inj same
          exact ⟨0, rest, node, rfl, rfl, member⟩
        · exact ⟨place + 1, rest, child, by rw [Nat.add_assoc, Nat.add_comm 1], inside, member⟩
      · rintro ⟨place, rest, child, rfl, inside, member⟩
        cases place with
        | zero =>
            obtain rfl := Option.some.inj inside
            exact .inl (List.mem_map.2 ⟨(rest, found), member, rfl⟩)
        | succ place =>
            exact .inr ⟨place, rest, child, by rw [Nat.add_assoc, Nat.add_comm 1], inside, member⟩

/-- The listing has just the nodes of the tree, each at its path. -/
theorem mem_placed : (path, found) ∈ node.placed ↔ node.at? path = some found := by
  induction path generalizing node with
  | nil =>
      rw [placed_eq, List.mem_cons, mem_placed_from]
      simp [at?, eq_comm]
  | cons place path induction =>
      rw [placed_eq, List.mem_cons, mem_placed_from]
      constructor
      · rintro (same | ⟨place, rest, child, same, inside, member⟩)
        · exact nomatch (Prod.mk.inj same).1
        · rw [Nat.zero_add] at same
          obtain ⟨rfl, rfl⟩ := List.cons.inj same
          rw [at?, inside]
          exact induction.1 member
      · intro there
        obtain ⟨child, inside, there⟩ := Option.bind_eq_some_iff.1 there
        exact .inr ⟨place, path, child, by rw [Nat.zero_add], inside, induction.2 there⟩

theorem placed_from_sorted (each : ∀ node ∈ nodes, node.placed.Pairwise fun first second =>
    first.1 < second.1) (start : Nat) :
    (placedFrom start nodes).Pairwise fun first second => first.1 < second.1 := by
  induction nodes generalizing start with
  | nil =>
      rw [placed_from_nil]
      exact .nil
  | cons node nodes induction =>
      obtain ⟨own, others⟩ := List.forall_mem_cons.1 each
      rw [placed_from_cons]
      refine List.pairwise_append.2 ⟨?_, induction others (start + 1), ?_⟩
      · exact List.pairwise_map.2 (own.imp fun less => List.cons_lt_cons_iff.2 (.inr ⟨rfl, less⟩))
      · intro first inFirst ⟨path, other⟩ inOthers
        obtain ⟨inner, -, rfl⟩ := List.mem_map.1 inFirst
        obtain ⟨place, rest, child, rfl, -, -⟩ := mem_placed_from.1 inOthers
        exact List.cons_lt_cons_iff.2 (.inl (by omega))

/-- A node comes before those below it, and what is below it before what stands beside it. -/
theorem placed_sorted (node : Outline Entry Menu Choice) :
    node.placed.Pairwise fun first second => first.1 < second.1 := by
  induction node using Outline.induct_below with
  | step node induction =>
      rw [placed_eq]
      refine List.pairwise_cons.2 ⟨?_, placed_from_sorted induction 0⟩
      rintro ⟨path, found⟩ member
      obtain ⟨place, rest, child, rfl, -, -⟩ := mem_placed_from.1 member
      exact List.nil_lt_cons _ _

theorem heads_eq (node : Outline Entry Menu Choice) :
    node.heads = node.head :: node.nodesBelow.flatMap heads := by
  cases node with
  | entry => rw [heads_entry, head, nodesBelow]
  | menu => rw [heads_menu, head, nodesBelow]
  | choice => rw [heads_choice, head, nodesBelow]

theorem placed_from_nodes (start : Nat) (nodes : List (Outline Entry Menu Choice)) :
    (placedFrom start nodes).map Prod.snd = nodes.flatMap fun node => node.placed.map Prod.snd := by
  induction nodes generalizing start with
  | nil =>
      rw [placed_from_nil]
      rfl
  | cons node nodes induction =>
      rw [placed_from_cons, List.map_append, List.map_map, induction, List.flatMap_cons]
      rfl

theorem placed_nodes (node : Outline Entry Menu Choice) : node.placed.map Prod.snd =
    node :: node.nodesBelow.flatMap fun child => child.placed.map Prod.snd := by
  rw [placed_eq, List.map_cons, placed_from_nodes]

theorem placed_heads (node : Outline Entry Menu Choice) :
    (node.placed.map Prod.snd).map head = node.heads := by
  induction node using Outline.induct_below with
  | step node induction =>
      rw [placed_nodes, heads_eq, List.map_cons, List.map_flatMap, List.flatMap_congr induction]

end Outline

namespace Root

open Outline

def tree (root : Root) : Symbol := .menu root.prompt root.children

/-- The nodes below the root with their paths. -/
def placed (root : Root) : List (List Nat × Symbol) := placedFrom 0 root.children

theorem tree_placed (root : Root) : root.tree.placed = ([], root.tree) :: root.placed :=
  placed_eq root.tree

theorem mem_root_placed {root : Root} {path : List Nat} {node : Symbol} :
    (path, node) ∈ root.placed ↔ path ≠ [] ∧ root.tree.at? path = some node := by
  rw [← mem_placed, tree_placed, List.mem_cons]
  constructor
  · intro member
    obtain ⟨place, rest, child, rfl, -, -⟩ := mem_placed_from.1 member
    exact ⟨List.cons_ne_nil _ _, .inr member⟩
  · rintro ⟨filled, same | member⟩
    · exact absurd (Prod.mk.inj same).1 filled
    · exact member

theorem placed_length (root : Root) : root.placed.length = root.size := by
  have heads : (root.placed.map Prod.snd).map head = root.nodes := by
    rw [placed, placed_from_nodes, List.map_flatMap, nodes]
    exact List.flatMap_congr fun child _ => placed_heads child
  rw [size_eq_length, ← heads, List.length_map, List.length_map]

end Root

end KernelMenu

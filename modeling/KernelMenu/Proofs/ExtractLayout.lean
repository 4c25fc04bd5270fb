import KernelMenu.Proofs.ExtractItems
import KernelMenu.Proofs.TextLines
import Mathlib.Algebra.GroupWithZero.Nat
import Mathlib.Data.List.Induction

/-!
The layout of the extract text: one row in a line, indented by the number of blocks that are open
around it. No entry has a block with nothing in it, so the number of lines is a sum over the nodes
of the tree.
-/

namespace KernelMenu

open Extract Outline

section Levels

def Extract.opened (rows : List Row) : Nat := rows.countP fun row => row.item.opens

def Extract.closed (rows : List Row) : Nat := rows.countP fun row => row.item.closes

theorem Extract.opened_cons (row : Row) (rows : List Row) :
    opened (row :: rows) = opened rows + row.item.opens.toNat := by
  rw [opened, List.countP_cons]
  cases row.item.opens <;> rfl

theorem Extract.closed_cons (row : Row) (rows : List Row) :
    closed (row :: rows) = closed rows + row.item.closes.toNat := by
  rw [closed, List.countP_cons]
  cases row.item.closes <;> rfl

/-- Rows that leave no block open when so many are open in front of them. A row stands as deep as
there are blocks around it, and the block of an entry is not closed at once. -/
inductive Extract.Stacked : Nat → List Row → Prop
  | nil : Stacked 0 []
  | row {depth : Nat} {item : Item} {rows : List Row} :
      (item.opensEntry = true → ∀ next ∈ rows.head?, next.item.closes = false) →
      Stacked (depth + item.opens.toNat) rows →
      Stacked (depth + item.closes.toNat) (⟨depth, item⟩ :: rows)

namespace Extract.Stacked

section Run

variable {depth : Nat} {rows front behind : List Row} {row next : Row}

/-- A row stands as deep as there are blocks open in front of it, and the row that closes a block as
deep as the one that opens it. -/
theorem level (stacked : Stacked depth rows) (split : rows = front ++ row :: behind) :
    depth + opened front = closed (front ++ [row]) + row.depth := by
  induction stacked generalizing front with
  | nil => exact absurd split (by simp)
  | row _ _ induction =>
      cases front with
      | nil =>
          obtain ⟨rfl, -⟩ := List.cons.inj split
          rw [List.nil_append, closed_cons, opened, closed, List.countP_nil, List.countP_nil]
          dsimp only
          omega
      | cons first front =>
          obtain ⟨rfl, behind⟩ := List.cons.inj split
          have level := induction behind
          rw [List.cons_append, opened_cons, closed_cons]
          dsimp only
          omega

theorem total (stacked : Stacked depth rows) : depth + opened rows = closed rows := by
  induction stacked with
  | nil => rfl
  | row _ _ induction =>
      rw [opened_cons, closed_cons]
      dsimp only
      omega

theorem never_negative (stacked : Stacked depth rows) (split : rows = front ++ behind) :
    closed front ≤ depth + opened front := by
  cases front using List.reverseRecOn with
  | nil => exact Nat.zero_le _
  | append_singleton front row =>
      have level := stacked.level (split.trans (List.append_assoc _ _ _))
      have more : opened front ≤ opened (front ++ [row]) :=
        (List.prefix_append front [row]).sublist.countP_le
      omega

theorem filled (stacked : Stacked depth rows) (split : rows = front ++ row :: next :: behind)
    (opens : row.item.opensEntry = true) : next.item.closes = false := by
  induction stacked generalizing front with
  | nil => exact absurd split (by simp)
  | row filled _ induction =>
      cases front with
      | nil =>
          obtain ⟨rfl, rfl⟩ := List.cons.inj split
          exact filled opens next rfl
      | cons first front => exact induction (List.cons.inj split).2

end Run

section Tree

theorem items_flat (node : Node) :
    ∀ item ∈ node.items, item.opens = false ∧ item.closes = false := by
  cases node with
  | entry config =>
      exact List.forall_mem_append.2 ⟨List.forall_mem_map.2 fun _ _ => ⟨rfl, rfl⟩,
        List.forall_mem_map.2 fun _ _ => ⟨rfl, rfl⟩⟩
  | menu title => exact List.forall_mem_map.2 fun _ _ => ⟨rfl, rfl⟩
  | choice head => exact List.forall_mem_map.2 fun _ _ => ⟨rfl, rfl⟩

theorem plain_of_no_items {config : Config} (none : Node.items (.entry config) = []) :
    config.isPlain = true := by
  obtain ⟨properties, inherited⟩ := List.append_eq_nil_iff.1 none
  have always : config.inherited.isYes = true := by
    simpa [Config.clauses, Expr.unlessYes] using inherited
  simp only [List.map_eq_nil_iff, Config.clauses, List.append_eq_nil_iff, Option.toList_eq_nil_iff]
    at properties
  obtain ⟨⟨⟨⟨⟨prompt, dependsOn⟩, defaults⟩, ranges⟩, selects⟩, env⟩ := properties
  simp [Config.isPlain, always, prompt, dependsOn, defaults, ranges, selects, env]

theorem first_row (symbol : Symbol) (depth : Nat) :
    ∃ row rows, symbol.rows depth = row :: rows ∧ row.item.closes = false := by
  rcases Symbol.rows_cases symbol with ⟨config, -, -, rows⟩ | ⟨-, rows⟩
  · exact ⟨_, _, rows depth, rfl⟩
  · exact ⟨_, _, rows depth, rfl⟩

/-- An entry that has a block has a clause or a node to put into it. -/
theorem block_filled {symbol : Symbol} (other : symbol.isBare = false)
    (entry : (Item.opening (Node.header symbol.head)).opensEntry = true) :
    Node.items symbol.head ≠ [] ∨ symbol.nodesBelow ≠ [] := by
  cases symbol with
  | entry config children =>
      by_contra empty
      obtain ⟨none, childless⟩ := not_or.1 empty
      have bare : config.isBare children = true := by
        rw [Config.isBare, plain_of_no_items (not_not.1 none)]
        exact List.isEmpty_iff.2 (not_not.1 childless)
      exact absurd (other.symm.trans bare) Bool.false_ne_true
  | menu title children => exact absurd entry Bool.false_ne_true
  | choice head options => exact absurd entry Bool.false_ne_true

theorem head_of_block {symbol : Symbol} (other : symbol.isBare = false) (depth : Nat)
    (behind : List Row) (entry : (Item.opening (Node.header symbol.head)).opensEntry = true) :
    ∀ next ∈ ((Node.items symbol.head).map (Row.mk depth) ++
        ((symbol.nodesBelow.map Symbol.rows).flatMap (fun rows => rows depth) ++ behind)).head?,
      next.item.closes = false := by
  intro next first
  cases own : Node.items symbol.head with
  | cons item items =>
      have flat := items_flat symbol.head item (own ▸ List.mem_cons_self)
      rw [own] at first
      obtain rfl := Option.some.inj first
      exact flat.2
  | nil =>
      have below := (block_filled other entry).resolve_left (· own)
      obtain ⟨child, children, split⟩ := List.exists_cons_of_ne_nil below
      obtain ⟨row, rows, begins, closes⟩ := first_row child depth
      rw [own, split, List.map_cons, List.flatMap_cons, begins] at first
      obtain rfl := Option.some.inj first
      exact closes

variable {depth : Nat} {rows : List Row}

theorem of_items {items : List Item}
    (flat : ∀ item ∈ items, item.opens = false ∧ item.closes = false)
    (stacked : Stacked depth rows) : Stacked depth (items.map (Row.mk depth) ++ rows) := by
  induction items with
  | nil => exact stacked
  | cons item items induction =>
      obtain ⟨⟨opens, closes⟩, others⟩ := List.forall_mem_cons.1 flat
      have plain : item.opensEntry = true → False := by
        cases item with
        | opening header => exact nomatch opens
        | _ => exact nofun
      have first : Stacked (depth + item.closes.toNat)
          (⟨depth, item⟩ :: (items.map (Row.mk depth) ++ rows)) := by
        refine .row (fun entry => (plain entry).elim) ?_
        rw [opens]
        exact induction others
      rwa [closes] at first

theorem of_below {symbols : List Symbol} (each : ∀ symbol ∈ symbols, ∀ {rows : List Row},
    Stacked depth rows → Stacked depth (symbol.rows depth ++ rows)) (stacked : Stacked depth rows) :
    Stacked depth ((symbols.map Symbol.rows).flatMap (fun rows => rows depth) ++ rows) := by
  induction symbols with
  | nil => exact stacked
  | cons symbol symbols induction =>
      obtain ⟨own, others⟩ := List.forall_mem_cons.1 each
      rw [List.map_cons, List.flatMap_cons, List.append_assoc]
      exact own (induction others)

theorem of_symbol (symbol : Symbol) : ∀ {depth : Nat} {rows : List Row}, Stacked depth rows →
    Stacked depth (symbol.rows depth ++ rows) := by
  induction symbol using Outline.induct_below with
  | step symbol induction =>
      intro depth rows stacked
      rcases Symbol.rows_cases symbol with ⟨config, -, -, own⟩ | ⟨other, own⟩
      · rw [own]
        exact @Stacked.row depth (.bare config.isMenu config.name config.type) rows nofun stacked
      · -- What is open behind a row is known first, so a block is put together from its end.
        have closing := @Stacked.row depth .closing rows nofun stacked
        have below := of_below (fun child member => induction child member) closing
        have inside := of_items (items_flat symbol.head) below
        have block := @Stacked.row depth (.opening (Node.header symbol.head)) _
          (head_of_block other (depth + 1) _) inside
        rw [own, blockRows]
        simpa [Item.closes] using block

end Tree

end Extract.Stacked

theorem Root.rows_stacked (root : Root) : Stacked 0 root.rows := by
  have whole := Stacked.of_below (fun child (_ : child ∈ root.children) _ stacked =>
    Stacked.of_symbol child stacked) Stacked.nil
  rwa [List.append_nil, List.flatMap_map] at whole

end Levels

section Count

/-- The number of lines that a node adds to those of the nodes below it: its header and, if it has a
block, a closing brace and its clauses. -/
def Symbol.lineCount : Symbol → Nat
  | .entry config children =>
      if config.isBare children then 1
      else 2 + config.prompt.toList.length + config.dependsOn.length + config.defaults.length +
        config.ranges.length + config.selects.length + config.env.length +
        if config.inherited.isYes then 0 else 1
  | .menu title _ => 2 + if title.condition.isYes then 0 else 1
  | .choice head _ => 2 + 1 + head.dependsOn.length + head.defaults.length

theorem unless_yes_length (expr : Expr) :
    expr.unlessYes.toList.length = if expr.isYes then 0 else 1 := by
  rw [Expr.unlessYes]
  split <;> rfl

theorem Symbol.line_count_of_block {symbol : Symbol} (other : symbol.isBare = false) :
    symbol.lineCount = (Node.items symbol.head).length + 2 := by
  cases symbol with
  | entry config children =>
      have bare : config.isBare children = false := other
      rw [lineCount, if_neg (by simp [bare])]
      simp only [Outline.head, Node.items, Config.clauses, List.length_append, List.length_map,
        unless_yes_length]
      omega
  | menu title children =>
      simp only [lineCount, Outline.head, Node.items, menuClauses, List.length_map,
        unless_yes_length]
      omega
  | choice head options =>
      simp only [lineCount, Outline.head, Node.items, Choice.clauses, List.length_append,
        List.length_cons, List.length_map]
      omega

theorem Symbol.below_length {symbols : List Symbol} {depth : Nat} (each : ∀ symbol ∈ symbols,
    (symbol.rows depth).length = ((symbol.placed.map Prod.snd).map lineCount).sum) :
    (symbols.flatMap fun symbol => symbol.rows depth).length =
      ((symbols.flatMap fun symbol => symbol.placed.map Prod.snd).map lineCount).sum := by
  induction symbols with
  | nil => rfl
  | cons symbol symbols induction =>
      obtain ⟨own, others⟩ := List.forall_mem_cons.1 each
      rw [List.flatMap_cons, List.length_append, own, induction others, List.flatMap_cons,
        List.map_append, List.sum_append]

theorem Symbol.rows_length (symbol : Symbol) : ∀ depth,
    (symbol.rows depth).length = ((symbol.placed.map Prod.snd).map lineCount).sum := by
  induction symbol using Outline.induct_below with
  | step symbol induction =>
      intro depth
      rw [placed_nodes, List.map_cons, List.sum_cons]
      rcases rows_cases symbol with ⟨config, rfl, plain, own⟩ | ⟨other, own⟩
      · have bare : config.isBare ([] : List Symbol) = true := by
          rw [Config.isBare, plain]
          rfl
        rw [own, lineCount, if_pos bare]
        rfl
      · have below := below_length fun child member => induction child member (depth + 1)
        rw [own, blockRows, line_count_of_block other, ← below, List.flatMap_map]
        simp only [List.length_cons, List.length_append, List.length_map, List.length_nil]
        omega

theorem Root.rows_length (root : Root) :
    root.rows.length = (root.placed.map fun found => Symbol.lineCount found.2).sum := by
  have lines := Symbol.below_length fun child (_ : child ∈ root.children) => child.rows_length 0
  rw [Root.rows, lines, Root.placed, ← placed_from_nodes 0, List.map_map]
  rfl

end Count

namespace Root

theorem rows_well_formed {root : Root} (wellFormed : root.WellFormed) :
    ∀ row ∈ root.rows, row.item.WellFormed := by
  intro row member
  obtain ⟨child, inside, member⟩ := List.mem_flatMap.1 member
  exact Symbol.rows_well_formed child (wellFormed.children child inside) 0 row member

theorem extract_consists {root : Root} (wellFormed : root.WellFormed) {indent : String}
    (single : '\n' ∉ indent.toList) : ConsistsOf (root.extract indent) (root.rows.map fun row =>
      String.join (List.replicate row.depth indent) ++ row.item.text) := by
  refine ⟨root.extract_eq indent, List.forall_mem_map.2 fun row member => ?_⟩
  have indents : '\n' ∉ (String.join (List.replicate row.depth indent)).toList := by
    rw [String.toList_join]
    intro inside
    obtain ⟨copy, copies, inside⟩ := List.mem_flatMap.1 inside
    rw [List.eq_of_mem_replicate copies] at inside
    exact single inside
  rw [String.toList_append]
  exact List.not_mem_append indents (root.rows_well_formed wellFormed row member).text_single

/-- Each line of the extract text has one row behind as many indents as there are blocks open in
front of it, where a closing brace stands as deep as its header. No block is left open, no condition
that always holds is printed behind a clause or as inherited, no entry has an empty block, and each
node adds the lines of its own header, clauses and closing brace. -/
theorem extract_is_laid_out {root : Root} (wellFormed : root.WellFormed) {indent : String}
    (single : '\n' ∉ indent.toList) :
    ConsistsOf (root.extract indent) (root.rows.map fun row =>
      String.join (List.replicate row.depth indent) ++ row.item.text) ∧
    (∀ front row behind, root.rows = front ++ row :: behind →
      opened front = closed (front ++ [row]) + row.depth) ∧
    (∀ front behind, root.rows = front ++ behind → closed front ≤ opened front) ∧
    closed root.rows = opened root.rows ∧
    (∀ row ∈ root.rows, ∀ condition ∈ row.item.condition?, condition.text ≠ "y") ∧
    (∀ front row next behind, root.rows = front ++ row :: next :: behind →
      row.item.opensEntry = true → next.item ≠ .closing) ∧
    (root.extract indent).toList.count '\n' =
      (root.placed.map fun found => Symbol.lineCount found.2).sum := by
  have consists := extract_consists wellFormed single
  have stacked := root.rows_stacked
  refine ⟨consists, ?_, ?_, ?_, ?_, ?_, ?_⟩
  · intro front row behind split
    rw [← stacked.level split, Nat.zero_add]
  · intro front behind split
    have never := stacked.never_negative split
    rwa [Nat.zero_add] at never
  · rw [← stacked.total, Nat.zero_add]
  · exact fun row member => (root.rows_well_formed wellFormed row member).condition_ne_yes
  · intro front row next behind split opens same
    have filled := stacked.filled split opens
    rw [same] at filled
    exact nomatch filled
  · rw [consists.count_feeds, List.length_map, rows_length]

theorem extract_is_laid_out_of_network : networkRoot.WellFormed ∧ '\n' ∉ "\t".toList ∧
    ConsistsOf (networkRoot.extract "\t") ["menu \"Net \\\"fast\\\"\" \x7b",
      "\tdepends on [!(NET=n) && (A || B)]", "\tmenuconfig RATE_2 integer \x7b",
      "\t\tprompt \"Rate\" if [\"\"!=!m]", "\t\tdepends on [y]", "\t\tdefault [-1]",
      "\t\trange [-1 0x1F]", "\t\tselect y if [X86]", "\t\x7d",
      "\tchoice boolean optional \x7b", "\t\tprompt \"Way\"", "\t\tconfig WAY boolean", "\t\x7d",
      "\x7d"] ∧
    (networkRoot.extract "\t").toList.count '\n' = 3 + 7 + 3 + 1 := by
  have single : '\n' ∉ "\t".toList := by decide
  obtain ⟨consists, -, -, -, -, -, count⟩ := extract_is_laid_out network_well_formed single
  exact ⟨network_well_formed, single, consists, count⟩

end Root

end KernelMenu

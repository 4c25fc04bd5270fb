import KernelMenu.Drawing
import KernelMenu.Proofs.NodePlace
import KernelMenu.Proofs.TextLines

/-!
What the drawing of a tree shows. It has a line for each node in the order of their paths; the
columns in front of a node tell which nodes above it are followed by others beside them. So trees
with the same drawing have nodes of the same kinds at the same places.
-/

namespace KernelMenu

open Drawing Outline

namespace Outline

variable {Entry Menu Choice : Type}

/-- The path to the next node beside the one at a path. -/
def nextPath : List Nat → List Nat
  | [] => []
  | [place] => [place + 1]
  | place :: path => place :: nextPath path

/-- Another node comes behind the one at the path and beside it. -/
def hasLater (top : Outline Entry Menu Choice) (path : List Nat) : Bool :=
  (top.at? (nextPath path)).isSome

variable {top node : Outline Entry Menu Choice} {place : Nat} {path : List Nat}

theorem has_later_singleton : top.hasLater [place] = top.nodesBelow[place + 1]?.isSome := by
  rw [hasLater, nextPath, at?]
  cases top.nodesBelow[place + 1]? <;> rfl

theorem has_later_cons (found : top.nodesBelow[place]? = some node) (filled : path ≠ []) :
    top.hasLater (place :: path) = node.hasLater path := by
  obtain ⟨step, path, rfl⟩ := List.exists_cons_of_ne_nil filled
  rw [hasLater, nextPath, at?, found]
  · rfl
  · exact List.cons_ne_nil step path

end Outline

namespace Drawing

/-- The column below a node: a stem if other nodes come behind it, and blanks otherwise. -/
def column (later : Bool) : String := if later then "│ " else "  "

/-- The branch that a node hangs at. -/
def branch (later : Bool) : String := if later then "├─" else "└─"

/-- A column for each node on the way from the top to the node at the path, the top left out. -/
def columns (top : Symbol) (path : List Nat) : String :=
  String.join ((List.range (path.length - 1)).map fun depth =>
    column (top.hasLater (path.take (depth + 1))))

def lineAt (top : Symbol) (path : List Nat) (node : Symbol) : String :=
  columns top path ++ branch (top.hasLater path) ++ " " ++ nodeLine node.kind node.label

section Lines

variable {top node found : Symbol} {place : Nat} {path : List Nat}

theorem line_at_singleton : lineAt top [place] found =
    branch (top.hasLater [place]) ++ " " ++ nodeLine found.kind found.label := by
  rw [lineAt]
  rfl

theorem line_at_cons (inside : top.nodesBelow[place]? = some node) (filled : path ≠ []) :
    lineAt top (place :: path) found = column (top.hasLater [place]) ++ lineAt node path found := by
  have columns_cons : columns top (place :: path) =
      column (top.hasLater [place]) ++ columns node path := by
    obtain ⟨step, rest, rfl⟩ := List.exists_cons_of_ne_nil filled
    have others : ∀ depth, top.hasLater ((place :: step :: rest).take (depth + 1 + 1)) =
        node.hasLater ((step :: rest).take (depth + 1)) := fun depth =>
      has_later_cons inside (by simp)
    simp only [columns, List.length_cons, Nat.add_sub_cancel, List.range_succ_eq_map, List.map_cons,
      List.map_map, String.join_cons, Function.comp_def, Nat.succ_eq_add_one, others]
    rfl
  rw [lineAt, columns_cons, has_later_cons inside filled, lineAt]
  simp only [String.append_assoc]

end Lines

theorem hang_cons (drawing : List String) (drawings : List (List String)) :
    hang (drawing :: drawings) =
      hook (branch (!drawings.isEmpty) ++ " ") (column (!drawings.isEmpty)) drawing ++
        hang drawings := by
  cases drawings with
  | nil => exact (List.append_nil _).symm
  | cons => rfl

end Drawing

namespace Symbol

theorem drawing_eq (symbol : Symbol) : symbol.drawing =
    nodeLine symbol.kind symbol.label :: hang (symbol.nodesBelow.map drawing) := by
  have entry : ∀ (config : Config) (children : List Symbol),
      drawing (.entry config children) = configLines config (children.map drawing) :=
    fun config children => Outline.fold_entry _ config children
  cases symbol with
  | entry config children => exact entry config children
  | menu title children => exact Outline.fold_menu _ title children
  | choice choice options =>
      rw [drawing, Outline.fold_choice, nodesBelow, List.map_map]
      dsimp only
      rw [List.map_map]
      exact congrArg (_ :: hang ·) (List.map_congr_left fun option _ =>
        (entry option.1 option.2).symm)

/-- The drawing hangs the lines of the nodes below a node in the order of their paths. -/
theorem hang_eq_lines (top : Symbol) : hang (top.nodesBelow.map drawing) =
    (placedFrom 0 top.nodesBelow).map fun found => lineAt top found.1 found.2 := by
  induction top using Outline.induct_below with
  | step top induction =>
      -- What is left of the nodes below the top, from any place on.
      suffices suffixes : ∀ nodes place, top.nodesBelow.drop place = nodes →
          hang (nodes.map drawing) =
            (placedFrom place nodes).map fun found => lineAt top found.1 found.2 from
        suffixes _ 0 rfl
      intro nodes
      induction nodes with
      | nil =>
          intro place _
          rw [placed_from_nil]
          rfl
      | cons node nodes others =>
          intro place rest
          have inside : top.nodesBelow[place]? = some node := by
            rw [← Nat.add_zero place, ← List.getElem?_drop, rest]
            rfl
          have behind : top.nodesBelow.drop (place + 1) = nodes := by
            rw [← List.drop_drop, rest]
            rfl
          have later : (!(nodes.map drawing).isEmpty) = top.hasLater [place] := by
            rw [has_later_singleton, ← Nat.add_zero (place + 1), ← List.getElem?_drop, behind]
            cases nodes <;> rfl
          have below := induction node (List.mem_of_getElem? inside)
          rw [List.map_cons, hang_cons, later, others (place + 1) behind, placed_from_cons,
            placed_eq, List.map_append, List.map_map, List.map_cons, drawing_eq, hook, below,
            List.map_map]
          refine congrArg (· ++ _) (congrArg₂ List.cons line_at_singleton.symm ?_)
          apply List.map_congr_left
          rintro ⟨path, found⟩ member
          obtain ⟨step, path, child, rfl, -, -⟩ := mem_placed_from.1 member
          exact (line_at_cons inside (List.cons_ne_nil _ _)).symm

end Symbol

namespace Drawing

/-- The line goes on below a node that others follow. -/
def isStem (line : String) : Bool := line.toList.head? = some '│'

theorem column_chars (later : Bool) :
    (column later).toList = [if later then '│' else ' ', ' '] := by
  cases later <;> rfl

theorem branch_chars (later : Bool) :
    (branch later).toList = [if later then '├' else '└', '─'] := by
  cases later <;> rfl

theorem branch_not_stem (later : Bool) (line : String) :
    isStem (branch later ++ " " ++ line) = false := by
  rw [isStem, String.toList_append, String.toList_append, branch_chars]
  cases later <;> rfl

theorem stem_of_later (line : String) : isStem (column true ++ line) = true := by
  rw [isStem, String.toList_append, column_chars]
  rfl

theorem branch_cancel {later later' : Bool} {line line' : String}
    (same : branch later ++ " " ++ line = branch later' ++ " " ++ line') :
    later = later' ∧ line = line' := by
  have chars := congrArg String.toList same
  simp only [String.toList_append, List.append_assoc] at chars
  obtain ⟨branches, behind⟩ := List.append_inj chars (by rw [branch_chars, branch_chars]; rfl)
  rw [branch_chars, branch_chars] at branches
  refine ⟨?_, String.toList_injective (List.append_cancel_left behind)⟩
  revert branches
  cases later <;> cases later' <;> decide

theorem column_cancel {later : Bool} {line line' : String}
    (same : column later ++ line = column later ++ line') : line = line' := by
  have chars := congrArg String.toList same
  rw [String.toList_append, String.toList_append] at chars
  exact String.toList_injective (List.append_cancel_left chars)

theorem hang_head {drawings : List (List String)} (filled : ∀ drawing ∈ drawings, drawing ≠ [])
    (line : String) (first : (hang drawings).head? = some line) : isStem line = false := by
  cases drawings with
  | nil => cases first
  | cons drawing drawings =>
      obtain ⟨own, others, rfl⟩ := List.exists_cons_of_ne_nil (filled drawing List.mem_cons_self)
      rw [hang_cons, hook] at first
      obtain rfl := Option.some.inj first
      exact branch_not_stem _ own

/-- Every drawing begins with a branch, and the lines below it stand behind a stem unless it is the
last one. -/
theorem hang_injective {drawings others : List (List String)}
    (filled : ∀ drawing ∈ drawings, drawing ≠ []) (filled' : ∀ drawing ∈ others, drawing ≠ [])
    (same : hang drawings = hang others) : drawings = others := by
  induction drawings generalizing others with
  | nil =>
      cases others with
      | nil => rfl
      | cons other others =>
          obtain ⟨line, lines, rfl⟩ := List.exists_cons_of_ne_nil (filled' other List.mem_cons_self)
          rw [hang_cons] at same
          cases same
  | cons drawing drawings induction =>
      obtain ⟨line, lines, rfl⟩ := List.exists_cons_of_ne_nil (filled drawing List.mem_cons_self)
      rw [hang_cons, hook, List.cons_append] at same
      cases others with
      | nil => cases same
      | cons other others =>
          obtain ⟨line', lines', rfl⟩ :=
            List.exists_cons_of_ne_nil (filled' other List.mem_cons_self)
          rw [hang_cons, hook, List.cons_append] at same
          obtain ⟨first, behind⟩ := List.cons.inj same
          obtain ⟨later, rfl⟩ := branch_cancel first
          have filledRest := fun drawing member => filled drawing (List.mem_cons_of_mem _ member)
          have filledRest' := fun drawing member => filled' drawing (List.mem_cons_of_mem _ member)
          rw [later] at behind
          cases some : !others.isEmpty with
          | false =>
              rw [some] at behind later
              obtain rfl : others = [] := by simpa using some
              obtain rfl : drawings = [] := by simpa using later
              rw [hang, List.append_nil, List.append_nil] at behind
              rw [List.map_injective_iff.2 (fun _ _ => column_cancel) behind]
          | true =>
              rw [some] at behind
              obtain ⟨below, rest⟩ := run_cancel isStem behind
                (List.forall_mem_map.2 fun line _ => stem_of_later line)
                (List.forall_mem_map.2 fun line _ => stem_of_later line)
                (hang_head filledRest) (hang_head filledRest')
              rw [List.map_injective_iff.2 (fun _ _ => column_cancel) below,
                induction filledRest filledRest' rest]

end Drawing

namespace Symbol

theorem kind_mem (symbol : Symbol) : symbol.kind ∈ ["Config", "MenuConfig", "Menu", "Choice"] := by
  cases symbol with
  | entry config children =>
      rw [kind, Config.kind]
      split <;> decide
  | menu | choice =>
      rw [kind]
      decide

theorem kind_plain (symbol : Symbol) : ∀ char ∈ symbol.kind.toList, char ≠ ':' := by
  have plain : ["Config", "MenuConfig", "Menu", "Choice"].all
      (fun kind => kind.toList.all (· ≠ ':')) = true := by decide
  have own := List.all_eq_true.1 plain _ symbol.kind_mem
  intro char member
  simpa using List.all_eq_true.1 own char member

theorem kind_of_line {symbol other : Symbol}
    (same : nodeLine symbol.kind symbol.label = nodeLine other.kind other.label) :
    symbol.kind = other.kind := by
  have chars := congrArg String.toList same
  simp only [nodeLine, String.toList_append, List.append_assoc] at chars
  obtain ⟨kinds, -⟩ := run_cancel (· ≠ ':') chars (by simpa using symbol.kind_plain)
    (by simpa using other.kind_plain) (by simp) (by simp)
  exact String.toList_injective kinds

theorem drawing_filled (symbol : Symbol) : symbol.drawing ≠ [] := by
  rw [drawing_eq]
  exact List.cons_ne_nil _ _

theorem below_of_hang {top other : Symbol}
    (same : hang (top.nodesBelow.map drawing) = hang (other.nodesBelow.map drawing)) :
    top.nodesBelow.map drawing = other.nodesBelow.map drawing :=
  hang_injective (List.forall_mem_map.2 fun node _ => node.drawing_filled)
    (List.forall_mem_map.2 fun node _ => node.drawing_filled) same

/-- Nodes with the same drawings below them have nodes of the same kinds below them. -/
theorem kinds_of_drawings {top other : Symbol} {path : List Nat} (filled : path ≠ [])
    (same : top.nodesBelow.map drawing = other.nodesBelow.map drawing) :
    (top.at? path).map kind = (other.at? path).map kind := by
  induction path generalizing top other with
  | nil => exact absurd rfl filled
  | cons place path induction =>
      have drawings :
          top.nodesBelow[place]?.map drawing = other.nodesBelow[place]?.map drawing := by
        rw [← List.getElem?_map, same, List.getElem?_map]
      rw [at?, at?]
      cases found : top.nodesBelow[place]? with
      | none =>
          rw [found] at drawings
          rw [Option.map_eq_none_iff.1 drawings.symm]
      | some node =>
          rw [found] at drawings
          obtain ⟨node', found', drawn⟩ := Option.map_eq_some_iff.1 drawings.symm
          rw [drawing_eq, drawing_eq] at drawn
          obtain ⟨line, below⟩ := List.cons.inj drawn
          rw [found']
          cases path with
          | nil => exact congrArg some (kind_of_line line).symm
          | cons step path => exact induction (List.cons_ne_nil _ _) (below_of_hang below).symm

end Symbol

section Single

theorem shortened_single {label : String} (single : '\n' ∉ label.toList) :
    '\n' ∉ (shortened label).toList := by
  rw [shortened]
  split
  · exact single
  · rw [String.toList_append, String.toList_ofList]
    intro member
    rcases List.mem_append.1 member with member | member
    · exact single (List.mem_of_mem_take member)
    · exact absurd member (by decide)

theorem Symbol.kind_single (symbol : Symbol) : '\n' ∉ symbol.kind.toList := by
  have plain : ∀ kind ∈ ["Config", "MenuConfig", "Menu", "Choice"], '\n' ∉ kind.toList := by decide
  exact plain _ symbol.kind_mem

theorem columns_single (top : Symbol) (path : List Nat) : '\n' ∉ (columns top path).toList := by
  rw [columns, String.toList_join]
  intro member
  obtain ⟨column, inside, member⟩ := List.mem_flatMap.1 member
  obtain ⟨depth, -, rfl⟩ := List.mem_map.1 inside
  rw [column_chars] at member
  revert member
  cases top.hasLater _ <;> decide

theorem line_at_single {top node : Symbol} {path : List Nat} (single : '\n' ∉ node.label.toList) :
    '\n' ∉ (lineAt top path node).toList := by
  have branch : '\n' ∉ (branch (top.hasLater path)).toList := by
    rw [branch_chars]
    cases top.hasLater path <;> decide
  have parts := columns_single top path
  have colon : '\n' ∉ ": ".toList := by decide
  have blank : '\n' ∉ " ".toList := by decide
  simp only [lineAt, nodeLine, String.toList_append, List.mem_append, not_or]
  exact ⟨⟨⟨parts, branch⟩, blank⟩, ⟨Symbol.kind_single node, colon⟩, shortened_single single⟩

end Single

namespace Root

/-- No label in the tree has a line feed in it, that of the root included. -/
def SingleLabels (root : Root) : Prop :=
  ∀ (path : List Nat) (node : Symbol), root.tree.at? path = some node → '\n' ∉ node.label.toList

theorem drawing_lines_eq (root : Root) : root.drawingLines =
    (kind ++ ": " ++ root.label) :: root.placed.map fun found => lineAt root.tree found.1 found.2 :=
  congrArg (_ :: ·) root.tree.hang_eq_lines

theorem drawing_consists {root : Root} (single : root.SingleLabels) :
    ConsistsOf root.drawing root.drawingLines := by
  refine ⟨rfl, ?_⟩
  rw [drawing_lines_eq]
  refine List.forall_mem_cons.2 ⟨?_, List.forall_mem_map.2 ?_⟩
  · have own : '\n' ∉ root.label.toList := single [] root.tree rfl
    have title : '\n' ∉ (kind ++ ": ").toList := by decide
    rw [String.toList_append]
    exact List.not_mem_append title own
  · rintro ⟨path, node⟩ member
    exact line_at_single (single path node (mem_root_placed.1 member).2)

/-- Below the line of the root the drawing has a line for each node, in the order of the paths, with
a column for each node above it but the root. Each line tells of a node and of those above it
whether others follow beside them, and so the drawing tells which places have nodes, and of which
kinds. -/
theorem drawing_shows_shape {root : Root} (single : root.SingleLabels) :
    (root.placed.Pairwise fun first second => first.1 < second.1) ∧
    (∀ path node, (path, node) ∈ root.placed ↔ path ≠ [] ∧ root.tree.at? path = some node) ∧
    root.placed.length = root.size ∧ root.drawing.toList.count '\n' = root.size + 1 ∧
    ConsistsOf root.drawing ((kind ++ ": " ++ root.label) ::
      root.placed.map fun found => lineAt root.tree found.1 found.2) ∧
    ∀ other : Root, other.SingleLabels → root.drawing = other.drawing →
      ∀ path, (root.tree.at? path).map Symbol.kind = (other.tree.at? path).map Symbol.kind := by
  have consists := drawing_consists single
  have length : root.drawingLines.length = root.size + 1 := by
    rw [drawing_lines_eq, List.length_cons, List.length_map, placed_length]
  refine ⟨?_, fun _ _ => mem_root_placed, root.placed_length, ?_, root.drawing_lines_eq ▸ consists,
    ?_⟩
  · exact placed_from_sorted (fun child _ => child.placed_sorted) 0
  · rw [consists.count_feeds, length]
  · intro other single' same path
    have lines := consists.unique (same ▸ drawing_consists single')
    have hung := (List.cons.inj lines).2
    cases path with
    | nil => rfl
    | cons place path =>
        exact Symbol.kinds_of_drawings (List.cons_ne_nil _ _) (Symbol.below_of_hang hung)

def bareEntry (name : String) : Config := ⟨name, false, .boolean, .yes, none, [], [], [], [], []⟩

def packing : Root := .ofChildren [
  .menu ⟨"General", .yes⟩ [.choice ⟨⟨"Pack", .yes⟩, true, true, [], []⟩
    [(bareEntry "A", []), (bareEntry "B", [.entry (bareEntry "C") []])]],
  .entry (bareEntry "D") []]

theorem drawing_shows_shape_of_packing : packing.SingleLabels ∧
    ConsistsOf packing.drawing ["RootMenu: Linux Kernel Configuration", "├─ Menu: General",
      "│ └─ Choice: Pack", "│   ├─ Config: A boolean", "│   └─ Config: B boolean",
      "│     └─ Config: C boolean", "└─ Config: D boolean"] := by
  have single : packing.SingleLabels := by
    have each : ∀ found ∈ packing.tree.placed, '\n' ∉ (Symbol.label found.2).toList := by
      decide
    exact fun path node there => each (path, node) (mem_placed.2 there)
  exact ⟨single, (drawing_shows_shape single).2.2.2.2.1⟩

end Root

end KernelMenu

import KernelMenu.Proofs.NodePlace
import KernelMenu.Proofs.TreePrinting
import KernelMenu.Proofs.TreeStatements

/-!
What stands in the lines of the extract text: headers of nodes, clauses, inherited conditions and
closing braces. A node has one line, or a block with its own clauses in front of the nodes below it.
-/

namespace KernelMenu

open Piece Extract

def NodeHeader.text : NodeHeader → String
  | .entry isMenu name type =>
      (if isMenu then "menuconfig" else "config") ++ " " ++ name ++ " " ++ type.text
  | .menu title => "menu \"" ++ title ++ "\""
  | .choice isBoolean isOptional =>
      "choice " ++ (if isBoolean then "boolean" else "tristate") ++
        (if isOptional then " optional" else "")

namespace Property

/-- A clause as it is printed, up to its guard. -/
def body : Property → String
  | prompt text => "prompt \"" ++ text.payload ++ "\""
  | dependsOn condition => "depends on [" ++ condition.text ++ "]"
  | default value => "default [" ++ value.payload.text ++ "]"
  | range bounds => "range [" ++ bounds.payload.low.text ++ " " ++ bounds.payload.high.text ++ "]"
  | select target => "select " ++ target.payload
  | env name => "env " ++ name.payload

/-- The condition that is printed behind a clause. -/
def guard? : Property → Option Expr
  | prompt text => text.condition.unlessYes
  | dependsOn _ => none
  | default value => value.condition.unlessYes
  | range bounds => bounds.condition.unlessYes
  | select target => target.condition.unlessYes
  | env name => name.condition.unlessYes

end Property

namespace Extract

def guardText : Option Expr → String
  | none => ""
  | some condition => " if [" ++ condition.text ++ "]"

inductive Item where
  | bare (isMenu : Bool) (name : String) (type : ValueType)
  | opening (header : NodeHeader)
  | clause (property : Property)
  | inherited (condition : Expr)
  | closing
deriving DecidableEq, Repr

namespace Item

def text : Item → String
  | bare isMenu name type => (NodeHeader.entry isMenu name type).text
  | opening header => header.text ++ " \x7b"
  | clause property => property.body ++ guardText property.guard?
  | inherited condition => "inherited [" ++ condition.text ++ "]"
  | closing => "\x7d"

def opens : Item → Bool
  | opening _ => true
  | bare _ _ _ | clause _ | inherited _ | closing => false

def closes : Item → Bool
  | closing => true
  | bare _ _ _ | opening _ | clause _ | inherited _ => false

def opensEntry : Item → Bool
  | opening (.entry _ _ _) => true
  | bare _ _ _ | opening _ | clause _ | inherited _ | closing => false

end Item

structure Row where
  depth : Nat
  item : Item
deriving DecidableEq, Repr

/-- What is printed in the line of a row, and how many indents stand in front of it. -/
def Row.printed (row : Row) : Nat × String := (row.depth, row.item.text)

end Extract

/-- The lines in the block of a node that are about the node itself. -/
def Node.items : Node → List Item
  | .entry config =>
      config.clauses.properties.map .clause ++ config.clauses.inherited.toList.map .inherited
  | .menu title =>
      (menuClauses title).dependsOn.toList.map fun condition => .clause (.dependsOn condition)
  | .choice choice => choice.clauses.properties.map .clause

namespace Extract

/-- The rows of a block that stands so many blocks deep, with the rows of what stands in it. -/
def blockRows (node : Node) (below : List (Nat → List Row)) (depth : Nat) : List Row :=
  ⟨depth, .opening node.header⟩ :: (node.items.map (Row.mk (depth + 1)) ++
    (below.flatMap (fun rows => rows (depth + 1)) ++ [⟨depth, .closing⟩]))

def entryRows (config : Config) (children : List (Nat → List Row)) (depth : Nat) : List Row :=
  if config.isBare children then [⟨depth, .bare config.isMenu config.name config.type⟩]
  else blockRows (.entry config) children depth

end Extract

/-- The rows of a node that stands so many blocks deep. -/
def Symbol.rows : Symbol → Nat → List Row := Outline.fold {
  entry := entryRows
  menu title := blockRows (.menu title)
  choice choice options :=
    blockRows (.choice choice) (options.map fun option => entryRows option.1 option.2) }

def Root.rows (root : Root) : List Row := root.children.flatMap fun child => child.rows 0

namespace Symbol

theorem rows_entry (config : Config) (children : List Symbol) :
    rows (.entry config children) = entryRows config (children.map rows) :=
  Outline.fold_entry _ config children

theorem rows_menu (title : Guarded String) (children : List Symbol) :
    rows (.menu title children) = blockRows (.menu title) (children.map rows) :=
  Outline.fold_menu _ title children

theorem rows_choice (choice : Choice) (options : List (Config × List Symbol)) :
    rows (.choice choice options) = blockRows (.choice choice)
      ((Outline.nodesBelow (.choice choice options)).map rows) := by
  rw [rows, Outline.fold_choice, Outline.nodesBelow]
  dsimp only
  rw [List.map_map, List.map_map]
  refine congrArg _ (List.map_congr_left fun option _ => ?_)
  exact (rows_entry option.1 option.2).symm

def isBare : Symbol → Bool
  | .entry config children => config.isBare children
  | .menu _ _ | .choice _ _ => false

theorem rows_cases (symbol : Symbol) :
    (∃ config, symbol = .entry config [] ∧ config.isPlain = true ∧ ∀ depth,
      symbol.rows depth = [⟨depth, .bare config.isMenu config.name config.type⟩]) ∨
    (symbol.isBare = false ∧ ∀ depth,
      symbol.rows depth = blockRows symbol.head (symbol.nodesBelow.map rows) depth) := by
  cases symbol with
  | entry config children =>
      have same : config.isBare (children.map rows) = config.isBare children := by
        rw [Config.isBare, Config.isBare, List.isEmpty_map]
      rw [rows_entry]
      cases bare : config.isBare children with
      | true =>
          have none := bare
          rw [Config.isBare, Bool.and_eq_true, List.isEmpty_iff] at none
          obtain ⟨plain, rfl⟩ := none
          refine .inl ⟨config, rfl, plain, fun depth => ?_⟩
          rw [entryRows, same, if_pos bare]
      | false =>
          refine .inr ⟨bare, fun depth => ?_⟩
          rw [entryRows, same, if_neg (by simp [bare])]
          rfl
  | menu title children => exact .inr ⟨rfl, congrFun (rows_menu title children)⟩
  | choice choice options => exact .inr ⟨rfl, congrFun (rows_choice choice options)⟩

end Symbol

namespace Piece

theorem render_append (front back : List Piece) :
    render (front ++ back) = render front ++ render back := by
  rw [render, List.map_append, String.join_append]
  rfl

theorem render_cons (piece : Piece) (pieces : List Piece) :
    render (piece :: pieces) = piece.text ++ render pieces := by
  rw [render, List.map_cons, String.join_cons]
  rfl

theorem render_token (word : Token) : render [.token word] = word.spelling := by
  rw [render_cons]
  exact String.append_empty

theorem render_spaced_single (word : List Piece) : render (spaced [word]) = render word := by
  simp [spaced]

theorem render_spaced_cons (word next : List Piece) (words : List (List Piece)) :
    render (spaced (word :: next :: words)) =
      render word ++ " " ++ render (spaced (next :: words)) := by
  rw [spaced_cons_cons, render_append, render_cons, String.append_assoc]
  rfl

theorem render_spaced_append (first next : List Piece) (words others : List (List Piece)) :
    render (spaced (first :: words ++ next :: others)) =
      render (spaced (first :: words)) ++ " " ++ render (spaced (next :: others)) := by
  induction words generalizing first with
  | nil => rw [List.singleton_append, render_spaced_cons, render_spaced_single]
  | cons second words induction =>
      rw [List.cons_append, List.cons_append, render_spaced_cons, ← List.cons_append, induction,
        render_spaced_cons]
      simp only [String.append_assoc]

end Piece

namespace Extract

section Rendering

theorem render_bracketed (inner : List Piece) :
    render (bracketed inner) = "[" ++ render inner ++ "]" := by
  rw [bracketed, render_append, render_cons, render_token]
  rfl

theorem render_condition (condition : Expr) : render (bracketed condition.pieces) =
    "[" ++ condition.text ++ "]" :=
  render_bracketed condition.pieces

theorem render_guarded (first : List Piece) (words : List (List Piece)) (expr : Expr) :
    render (spaced (first :: words ++ guard expr)) =
      render (spaced (first :: words)) ++ guardText expr.unlessYes := by
  rw [guard, Expr.unlessYes]
  split
  · rw [List.append_nil, guardText, String.append_empty]
  · rw [condition, render_spaced_append, render_spaced_cons, render_spaced_single, render_condition,
      word, render_token, guardText, String.append_assoc]
    rfl

theorem render_clause (keyword : Keyword) (payload : List Piece) (expr : Expr) :
    render (line ([word keyword, payload] ++ guard expr)).pieces =
      keyword.spelling ++ " " ++ render payload ++ guardText expr.unlessYes := by
  rw [line, List.cons_append, ← List.cons_append, render_guarded, render_spaced_cons,
    render_spaced_single, word, render_token]
  rfl

theorem render_quoted (text : String) : render (quoted text) = "\"" ++ text ++ "\"" :=
  render_token (.text text)

theorem render_named (name : String) : render (named name) = name := render_token (.ident name)

end Rendering

def propertyLine : Property → Line
  | .prompt text => promptLine text
  | .dependsOn condition => dependsLine condition
  | .default value => defaultLine value
  | .range bounds => rangeLine bounds
  | .select target => selectLine target
  | .env name => envLine name

theorem render_property_line (property : Property) :
    render (propertyLine property).pieces = (Item.clause property).text := by
  -- What is printed around a payload is literal text, so it is joined by computing.
  cases property with
  | prompt text =>
      have line := render_clause .prompt (quoted text.payload) text.condition
      rw [render_quoted] at line
      exact line
  | dependsOn condition =>
      have line : render (propertyLine (.dependsOn condition)).pieces = _ :=
        render_spaced_cons (word .depends) (word .on) [bracketed condition.pieces]
      rw [render_spaced_cons, render_spaced_single, render_condition] at line
      exact line.trans String.append_empty.symm
  | default value =>
      have line := render_clause .default (bracketed value.payload.pieces) value.condition
      rw [render_condition] at line
      exact line
  | range bounds =>
      have line := render_clause .range
        (bracketed (spaced [bounds.payload.low.pieces, bounds.payload.high.pieces]))
          bounds.condition
      rw [render_bracketed, render_spaced_cons, render_spaced_single] at line
      exact line
  | select target =>
      have line := render_clause .select (named target.payload) target.condition
      rw [render_named] at line
      exact line
  | env name =>
      have line := render_clause .env (named name.payload) name.condition
      rw [render_named] at line
      exact line

/-- What is printed in each line, and how many indents stand in front of it. -/
def printed (depth : Nat) (lines : List Line) : List (Nat × String) :=
  lines.map fun line => (line.depth + depth, render line.pieces)

section Printing

variable {depth : Nat}

theorem printed_append (front back : List Line) :
    printed depth (front ++ back) = printed depth front ++ printed depth back := List.map_append

theorem printed_line (words : List (List Piece)) :
    printed depth [line words] = [(depth, render (line words).pieces)] := by
  rw [printed, List.map_singleton, line, Nat.zero_add]

theorem printed_deeper (lines : List Line) :
    printed depth (lines.map fun line => ⟨line.depth + 1, line.pieces⟩) =
      printed (depth + 1) lines := by
  rw [printed, List.map_map]
  refine List.map_congr_left fun line _ => ?_
  rw [Function.comp_apply, Nat.add_assoc, Nat.add_comm 1]

theorem printed_properties (properties : List Property) :
    printed depth (properties.map propertyLine) =
      ((properties.map Item.clause).map (Row.mk depth)).map Row.printed := by
  rw [printed, List.map_map, List.map_map, List.map_map]
  refine List.map_congr_left fun property _ => ?_
  have level : (propertyLine property).depth = 0 := by cases property <;> rfl
  rw [Function.comp_apply, render_property_line, level, Nat.zero_add]
  rfl

theorem printed_inherited (expr : Expr) : printed depth (inheritedLines expr) =
    ((expr.unlessYes.toList.map Item.inherited).map (Row.mk depth)).map Row.printed := by
  rw [inheritedLines, Expr.unlessYes]
  split
  · rfl
  · have text : render (line (word .inherited :: condition expr)).pieces =
        (Item.inherited expr).text := by
      rw [line, condition, render_spaced_cons, render_spaced_single, render_condition]
      rfl
    rw [printed_line, text]
    rfl

variable {node : Node} {first : List Piece} {words : List (List Piece)} {clauses : List Line}
  {lines : List (List Line)} {below : List (Nat → List Row)}

/-- A block is printed like its rows if all that stands in it is. -/
theorem printed_block (header : render (spaced (first :: words)) = node.header.text)
    (own : ∀ depth, printed depth clauses = (node.items.map (Row.mk depth)).map Row.printed)
    (inside : ∀ depth, printed depth lines.flatten =
      (below.flatMap fun rows => rows depth).map Row.printed) (depth : Nat) :
    printed depth (block (first :: words) (clauses ++ lines.flatten)) =
      (blockRows node below depth).map Row.printed := by
  have opening : printed depth [line (first :: words ++ [brace .openBrace])] =
      [Row.printed ⟨depth, .opening node.header⟩] := by
    rw [printed_line, line, render_spaced_append, header, render_spaced_single, brace, render_token,
      String.append_assoc]
    rfl
  have closing : printed depth [line [brace .closeBrace]] = [Row.printed ⟨depth, .closing⟩] := by
    rw [printed_line]
    rfl
  rw [block, ← List.singleton_append, printed_append, printed_append, opening, closing,
    printed_deeper, printed_append, own, inside]
  simp [blockRows]

theorem printed_below {children : List Symbol} (each : ∀ child ∈ children, ∀ depth,
    printed depth child.extractLines = (child.rows depth).map Row.printed) (depth : Nat) :
    printed depth (children.map Symbol.extractLines).flatten =
      ((children.map Symbol.rows).flatMap fun rows => rows depth).map Row.printed := by
  induction children with
  | nil => rfl
  | cons child children induction =>
      obtain ⟨own, others⟩ := List.forall_mem_cons.1 each
      rw [List.map_cons, List.flatten_cons, printed_append, own, induction others, List.map_cons,
        List.flatMap_cons, List.map_append]

theorem render_entry_header (config : Config) :
    render (spaced [word config.keyword, named config.name, word config.type.keyword]) =
      (Node.header (.entry config)).text := by
  have keyword : (Token.keyword config.keyword).spelling =
      if config.isMenu then "menuconfig" else "config" := by
    rw [Config.keyword]
    cases config.isMenu <;> rfl
  rw [render_spaced_cons, render_spaced_cons, render_spaced_single, render_named, word, word,
    render_token, render_token, keyword, Node.header, NodeHeader.text]
  simp only [String.append_assoc]
  rfl

theorem render_choice_header (choice : Choice) :
    render (spaced ([word .choice, word choice.type.keyword] ++
      if choice.isMandatory then [] else [word .optional])) =
        (Node.header (.choice choice)).text := by
  rw [Choice.type, Node.header, NodeHeader.text]
  cases choice.isBoolean <;> cases choice.isMandatory <;> rfl

theorem printed_config_clauses (config : Config) : printed depth
    (config.prompt.toList.map promptLine ++ config.dependsOn.map dependsLine ++
      config.defaults.map defaultLine ++ config.ranges.map rangeLine ++
      config.selects.map selectLine ++ config.env.map envLine ++
      inheritedLines config.inherited) =
        ((Node.items (.entry config)).map (Row.mk depth)).map Row.printed := by
  rw [printed_append, printed_inherited, Node.items, List.map_append, List.map_append,
    ← printed_properties]
  simp [Config.clauses, Function.comp_def, propertyLine]

theorem printed_config {config : Config} {children : List Symbol} (each : ∀ child ∈ children,
    ∀ depth, printed depth child.extractLines = (child.rows depth).map Row.printed) (depth : Nat) :
    printed depth (configLines config (children.map Symbol.extractLines)) =
      (entryRows config (children.map Symbol.rows) depth).map Row.printed := by
  have sameBare : config.isBare (children.map Symbol.extractLines) =
      config.isBare (children.map Symbol.rows) := by
    rw [Config.isBare, Config.isBare, List.isEmpty_map, List.isEmpty_map]
  have header := render_entry_header config
  rw [configLines, entryRows, sameBare]
  split
  · rw [printed_line, line, header]
    rfl
  · exact printed_block header (fun _ => printed_config_clauses config) (printed_below each) depth

theorem printed_menu {title : Guarded String} {children : List Symbol} (each : ∀ child ∈ children,
    ∀ depth, printed depth child.extractLines = (child.rows depth).map Row.printed) (depth : Nat) :
    printed depth (menuLines title (children.map Symbol.extractLines)) =
      (blockRows (.menu title) (children.map Symbol.rows) depth).map Row.printed := by
  have header : render (spaced [word .menu, quoted title.payload]) =
      (Node.header (.menu title)).text := by
    rw [render_spaced_cons, render_spaced_single, render_quoted]
    rfl
  have own : ∀ depth, printed depth
      (if title.condition.isYes then [] else [dependsLine title.condition]) =
        ((Node.items (.menu title)).map (Row.mk depth)).map Row.printed := by
    intro depth
    rw [Node.items, menuClauses, Expr.unlessYes]
    split
    · rfl
    · exact printed_properties [.dependsOn title.condition]
  exact printed_block header own (printed_below each) depth

theorem printed_choice {choice : Choice} {options : List (Config × List Symbol)}
    (each : ∀ option ∈ options, ∀ child ∈ option.2, ∀ depth,
      printed depth child.extractLines = (child.rows depth).map Row.printed) (depth : Nat) :
    printed depth (Symbol.extractLines (.choice choice options)) =
      (Symbol.rows (.choice choice options) depth).map Row.printed := by
  have options' : ∀ child ∈ Outline.nodesBelow (.choice choice options), ∀ depth,
      printed depth (Symbol.extractLines child) = (Symbol.rows child depth).map Row.printed := by
    intro child member depth
    obtain ⟨option, inside, rfl⟩ := List.mem_map.1 member
    rw [Symbol.extract_lines_entry, Symbol.rows_entry]
    exact printed_config (each option inside) depth
  have own : ∀ depth, printed depth (promptLine choice.prompt :: choice.defaults.map defaultLine ++
      choice.dependsOn.map dependsLine) =
        ((Node.items (.choice choice)).map (Row.mk depth)).map Row.printed := by
    intro depth
    rw [Node.items, ← printed_properties]
    simp [Choice.clauses, Function.comp_def, propertyLine]
  have lines : (Outline.nodesBelow (.choice choice options)).map Symbol.extractLines =
      options.map fun option => configLines option.1 (option.2.map Symbol.extractLines) := by
    rw [Outline.nodesBelow, List.map_map]
    exact List.map_congr_left fun option _ => Symbol.extract_lines_entry option.1 option.2
  have whole := printed_block (render_choice_header choice) own (printed_below options') depth
  rw [lines] at whole
  rw [Symbol.extract_lines_choice, Symbol.rows_choice]
  exact whole

end Printing

theorem printed_extract_lines (symbol : Symbol) : ∀ depth,
    printed depth symbol.extractLines = (symbol.rows depth).map Row.printed := by
  induction symbol using Outline.induct with
  | atEntry config children induction =>
      intro depth
      rw [Symbol.extract_lines_entry, Symbol.rows_entry]
      exact printed_config induction depth
  | atMenu title children induction =>
      intro depth
      rw [Symbol.extract_lines_menu, Symbol.rows_menu]
      exact printed_menu induction depth
  | atChoice choice options induction => exact printed_choice induction

/-- Every line is printed behind its indents, and ended by a line feed. -/
theorem render_lines (indent : String) (lines : List Line) :
    render (lines.flatMap (Line.indented indent)) = String.join ((printed 0 lines).map fun line =>
      String.join (List.replicate line.1 indent) ++ line.2 ++ "\n") := by
  induction lines with
  | nil => rfl
  | cons line lines induction =>
      have own : render (line.indented indent) =
          String.join (List.replicate line.depth indent) ++ render line.pieces ++ "\n" := by
        rw [Line.indented, List.cons_append, render_cons, render_append, String.append_assoc]
        rfl
      have first :
          printed 0 (line :: lines) = (line.depth, render line.pieces) :: printed 0 lines :=
        rfl
      rw [List.flatMap_cons, render_append, own, induction, first, List.map_cons, String.join_cons]

end Extract

/-- The extract text is made of the rows of the tree. -/
theorem Root.extract_eq (root : Root) (indent : String) : root.extract indent =
    String.join ((root.rows.map fun row =>
      String.join (List.replicate row.depth indent) ++ row.item.text).map (· ++ "\n")) := by
  have lines : printed 0 (root.children.flatMap Symbol.extractLines) =
      root.rows.map Row.printed := by
    rw [Root.rows, List.map_flatMap, printed, List.map_flatMap]
    exact List.flatMap_congr fun child _ => printed_extract_lines child 0
  rw [Root.extract, Root.extractPieces, render_lines, lines, List.map_map, List.map_map]
  rfl

end KernelMenu

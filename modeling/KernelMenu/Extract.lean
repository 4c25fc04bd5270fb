import KernelMenu.Piece
import KernelMenu.Symbol

/-!
The canonical extract text of a tree: one clause on each line, blocks indented by their depth.
Guards that always hold, and bodies of entries with nothing in them, are left out.
-/

namespace KernelMenu

namespace Extract

structure Line where
  depth : Nat
  pieces : List Piece
deriving DecidableEq, Repr

def word (keyword : Keyword) : List Piece := [.token (.keyword keyword)]

def quoted (text : String) : List Piece := [.token (.text text)]

def named (name : String) : List Piece := [.token (.ident name)]

def brace (mark : Mark) : List Piece := [.token (.mark mark)]

def bracketed (inner : List Piece) : List Piece :=
  .token (.mark .openBracket) :: inner ++ [.token (.mark .closeBracket)]

def condition (expr : Expr) : List (List Piece) := [bracketed expr.pieces]

def guard (expr : Expr) : List (List Piece) :=
  if expr.isYes then [] else word .guard :: condition expr

/-- A line at depth zero. -/
def line (words : List (List Piece)) : Line := ⟨0, Piece.spaced words⟩

def promptLine (prompt : Guarded String) : Line :=
  line ([word .prompt, quoted prompt.payload] ++ guard prompt.condition)

def dependsLine (expr : Expr) : Line := line ([word .depends, word .on] ++ condition expr)

def defaultLine (value : Guarded Expr) : Line :=
  line (word .default :: condition value.payload ++ guard value.condition)

def rangeLine (bounds : Guarded Bounds) : Line :=
  let ends := Piece.spaced [bounds.payload.low.pieces, bounds.payload.high.pieces]
  line ([word .range, bracketed ends] ++ guard bounds.condition)

def selectLine (target : Guarded String) : Line :=
  line ([word .select, named target.payload] ++ guard target.condition)

def envLine (name : Guarded String) : Line :=
  line ([word .env, named name.payload] ++ guard name.condition)

def inheritedLines (expr : Expr) : List Line :=
  if expr.isYes then [] else [line (word .inherited :: condition expr)]

/-- A header with its body one step deeper, and a closing brace below. -/
def block (header : List (List Piece)) (body : List Line) : List Line :=
  line (header ++ [brace .openBrace]) ::
    body.map (fun line => ⟨line.depth + 1, line.pieces⟩) ++ [line [brace .closeBrace]]

def configLines (config : Config) (children : List (List Line)) : List Line :=
  let header := [word config.keyword, named config.name, word config.type.keyword]
  if config.isBare children then [line header]
  else
    block header (config.prompt.toList.map promptLine ++ config.dependsOn.map dependsLine ++
      config.defaults.map defaultLine ++ config.ranges.map rangeLine ++
      config.selects.map selectLine ++ config.env.map envLine ++
      inheritedLines config.inherited ++ children.flatten)

def menuLines (title : Guarded String) (children : List (List Line)) : List Line :=
  let dependency := if title.condition.isYes then [] else [dependsLine title.condition]
  block [word .menu, quoted title.payload] (dependency ++ children.flatten)

def choiceLines (choice : Choice) (options : List (List Line)) : List Line :=
  let optional := if choice.isMandatory then [] else [word .optional]
  block ([word .choice, word choice.type.keyword] ++ optional)
    (promptLine choice.prompt :: choice.defaults.map defaultLine ++
      choice.dependsOn.map dependsLine ++ options.flatten)

end Extract

open Extract

def Symbol.extractLines : Symbol → List Line := Outline.fold {
  entry := configLines
  menu := menuLines
  choice choice options :=
    choiceLines choice (options.map fun option => configLines option.1 option.2) }

/-- The line after as many copies of the indent as it is deep. -/
def Extract.Line.indented (indent : String) (line : Line) : List Piece :=
  .gap (String.join (List.replicate line.depth indent)) :: line.pieces ++ [.gap "\n"]

namespace Root

def extractPieces (root : Root) (indent : String) : List Piece :=
  (root.children.flatMap Symbol.extractLines).flatMap (Line.indented indent)

def extract (root : Root) (indent : String) : String := Piece.render (root.extractPieces indent)

end Root

end KernelMenu

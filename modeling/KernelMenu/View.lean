import KernelMenu.Datum.Json
import KernelMenu.Datum.Yaml
import KernelMenu.Drawing
import KernelMenu.Dump
import KernelMenu.Extract
import KernelMenu.Input
import KernelMenu.Record

/-!
The views of a source: which stage of reading it is shown, and in which format. Seven pairs of the
two are on offer; they are named by both names with a dash between them.
-/

namespace KernelMenu

inductive Stage where
  | tokens | tree
deriving DecidableEq, Repr

inductive Format where
  | simple | json | yaml | tag | drawing | extract
deriving DecidableEq, Repr

def Stage.name : Stage → String
  | tokens => "token"
  | tree => "ast"

def Stage.ofName? (name : String) : Option Stage :=
  [Stage.tokens, .tree].find? fun stage => stage.name == name

namespace Format

def all : List Format := [simple, json, yaml, tag, drawing, extract]

def name : Format → String
  | simple => "simple"
  | json => "json"
  | yaml => "yaml"
  | tag => "tag"
  | drawing => "treeviz"
  | extract => "kconfig"

def ofName? (name : String) : Option Format := all.find? fun format => format.name == name

end Format

structure View where
  stage : Stage
  format : Format
deriving DecidableEq, Repr

namespace View

def name (view : View) : String := view.stage.name ++ "-" ++ view.format.name

def offered : List View :=
  [⟨.tokens, .simple⟩, ⟨.tokens, .json⟩, ⟨.tree, .tag⟩, ⟨.tree, .drawing⟩, ⟨.tree, .json⟩,
    ⟨.tree, .yaml⟩, ⟨.tree, .extract⟩]

end View

inductive ViewError where
  | noDash (name : String)
  | unknownStage (name : String)
  | unknownFormat (name : String)
  | notOffered (view : View)
  | needsTree (format : Format)
  | needsTokens
  | unreadable (fault : InputFault)
  | rejected (error : ParseError)
deriving DecidableEq, Repr

namespace ViewError

inductive Kind where
  | format | stage | formatType | input | parse
deriving DecidableEq, Repr

def kind : ViewError → Kind
  | noDash _ => .format
  | unknownStage _ => .stage
  | unknownFormat _ | notOffered _ | needsTree _ | needsTokens => .formatType
  | unreadable _ => .input
  | rejected _ => .parse

def Kind.heading : Kind → String
  | format => "Invalid format: "
  | stage => "Invalid stage: "
  | formatType => "Invalid format type: "
  | input => "IO error: "
  | parse => "Parse error at "

def detail : ViewError → String
  | noDash name => name
  | unknownStage name => name
  | unknownFormat name => name
  | notOffered view =>
      "format '" ++ view.format.name ++ "' is not supported for the " ++ view.stage.name ++ " stage"
  | needsTree format => format.name ++ " format only works with ast stage"
  | needsTokens => "simple format only works with token stage"
  | unreadable fault => fault.message
  | rejected error => error.message

def message (error : ViewError) : String := error.kind.heading ++ error.detail

end ViewError

/-- The view of a name. The first dash of the name counts. -/
def View.ofName (name : String) : Except ViewError View :=
  let chars := name.toList
  let stageName := chars.takeWhile (· ≠ '-')
  match chars.dropWhile (· ≠ '-') with
  | [] => .error (.noDash name)
  | _ :: formatName =>
      match Stage.ofName? (String.ofList stageName) with
      | none => .error (.unknownStage (String.ofList stageName))
      | some stage =>
          match Format.ofName? (String.ofList formatName) with
          | none => .error (.unknownFormat (String.ofList formatName))
          | some format =>
              let view : View := ⟨stage, format⟩
              if View.offered.contains view then .ok view else .error (.notOffered view)

structure RenderOptions where
  spreadJson : Bool
  indent : String
deriving DecidableEq, Repr

def RenderOptions.jsonLayout (options : RenderOptions) : Datum.Json.Layout :=
  if options.spreadJson then .spread else .dense

/-- The tokens of a source in their own spelling, one space apart. -/
def Token.line (tokens : List Token) : String := " ".intercalate (tokens.map Token.spelling)

def Token.render (tokens : List Token) (format : Format) (options : RenderOptions) :
    Except ViewError String :=
  match format with
  | .simple => .ok (line tokens)
  | .json => .ok ((Datum.list (tokens.map datum)).toJson options.jsonLayout)
  | format => .error (.needsTree format)

def Root.render (root : Root) (format : Format) (options : RenderOptions) :
    Except ViewError String :=
  match format with
  | .tag => .ok root.tagDump
  | .drawing => .ok root.drawing
  | .extract => .ok (root.extract options.indent)
  | .json => .ok (root.datum.toJson options.jsonLayout)
  | .yaml => .ok root.datum.toYaml
  | .simple => .error .needsTokens

namespace View

def render (view : View) (source : String) (options : RenderOptions) : Except ViewError String :=
  match view.stage with
  | .tokens =>
      match Token.ofSource source with
      | .error error => .error (.rejected (.ofLexical source error))
      | .ok tokens => Token.render tokens view.format options
  | .tree =>
      match Root.parse source with
      | .error error => .error (.rejected error)
      | .ok root => root.render view.format options

def renderFile (view : View) (file : Option ByteArray) (options : RenderOptions) :
    Except ViewError String :=
  match readText file with
  | .error fault => .error (.unreadable fault)
  | .ok source => view.render source options

end View

end KernelMenu

import KernelMenu.CommandLine.Help
import KernelMenu.Settings
import KernelMenu.Text.Lossy

/-!
The command line: what its arguments ask for, and what the program then prints. Files are given as
a function from their paths, so that a run is a value like any other.
-/

namespace KernelMenu.CommandLine

def version : String := "0.1.0"

inductive ValueOption where
  | format | config
deriving DecidableEq, Repr

structure Request where
  path : Option String
  format : Option String
  config : Option String
  verbose : Bool
deriving DecidableEq, Repr

inductive Invocation where
  | version
  | help (topic : Topic)
  | listFormats
  | parse (path : String) (request : Request)
deriving DecidableEq, Repr

/-- Why the arguments of a command are not read to their end: they do not fit together, or one of
them asks for help, whatever follows. -/
inductive Stop where
  | refused
  | help
deriving DecidableEq, Repr

namespace Request

def empty : Request := ⟨none, none, none, false⟩

/-- Nothing may be said twice. -/
def withPath (request : Request) (path : String) : Except Stop Request :=
  if request.path.isSome then .error .refused else .ok { request with path := some path }

def withValue (request : Request) (option : ValueOption) (value : String) : Except Stop Request :=
  match option with
  | .format =>
      if request.format.isSome then .error .refused
      else .ok { request with format := some value }
  | .config =>
      if request.config.isSome then .error .refused
      else .ok { request with config := some value }

def withVerbose (request : Request) : Except Stop Request :=
  if request.verbose then .error .refused else .ok { request with verbose := true }

/-- A request, and the option that still waits for its value, if there is one. -/
abbrev Pending := Request × Option ValueOption

/-- One argument with short options: flags, and at most one option that takes what follows it as
its value. If nothing follows it there, the option waits for the next argument. -/
def readShort (request : Request) : List Char → Except Stop Pending
  | [] => .ok (request, none)
  | 'h' :: _ => .error .help
  | 'v' :: rest => do readShort (← request.withVerbose) rest
  | 'f' :: rest => attached .format rest
  | 'c' :: rest => attached .config rest
  | _ => .error .refused
where
  attached (option : ValueOption) : List Char → Except Stop Pending
    | [] => .ok (request, some option)
    | '=' :: value => do .ok (← request.withValue option (String.ofList value), none)
    | value => do .ok (← request.withValue option (String.ofList value), none)

def readLong (request : Request) (text : List Char) : Except Stop Pending :=
  let name := String.ofList (text.takeWhile (· ≠ '='))
  let option? : Option ValueOption :=
    if name = "format" then some .format else if name = "config" then some .config else none
  match option?, text.dropWhile (· ≠ '=') with
  | some option, [] => .ok (request, some option)
  | some option, _ :: value => do .ok (← request.withValue option (String.ofList value), none)
  | none, [] =>
      if name = "verbose" then do .ok (← request.withVerbose, none)
      else if name = "help" then .error .help
      else .error .refused
  | none, _ :: _ => .error .refused

/-- True of an argument that can only be an option. A lone dash is none. -/
def isOption (argument : String) : Bool :=
  argument.toList.head? = some '-' && argument ≠ "-"

/-- All arguments after two dashes are paths. -/
def readPaths (request : Request) : List String → Except Stop Request
  | [] => .ok request
  | path :: arguments => do readPaths (← request.withPath path) arguments

def read (request : Request) : List String → Except Stop Request
  | [] => .ok request
  | argument :: arguments =>
      match argument.toList with
      | ['-', '-'] => readPaths request arguments
      | '-' :: '-' :: text => resume (request.readLong text) arguments
      | '-' :: char :: text => resume (request.readShort (char :: text)) arguments
      | _ =>
          match request.withPath argument with
          | .ok request => read request arguments
          | .error stop => .error stop
where
  /-- Goes on after an argument; an option that waits for a value takes the next argument. -/
  resume (state : Except Stop Pending) (arguments : List String) : Except Stop Request :=
    match state, arguments with
    | .error stop, _ => .error stop
    | .ok (request, none), arguments => read request arguments
    | .ok (_, some _), [] => .error .refused
    | .ok (request, some option), value :: arguments =>
        if isOption value then .error .refused
        else
          match request.withValue option value with
          | .ok request => read request arguments
          | .error stop => .error stop

end Request

/-- True of an option that is answered at once, whatever follows it; in an argument with short
options it comes first. -/
def asksFor (name : String) (letter : Char) (argument : String) : Bool :=
  argument = "--" ++ name || argument.toList.take 2 = ['-', letter]

def asksVersion : String → Bool := asksFor "version" 'V'

def asksHelp : String → Bool := asksFor "help" 'h'

def Invocation.ofArguments : List String → Option Invocation
  | [] => none
  | "parse" :: arguments =>
      match Request.empty.read arguments with
      | .ok request => request.path.map fun path => .parse path request
      | .error .help => some (.help .parse)
      | .error .refused => none
  | ["list-formats"] | ["list-formats", "--"] => some .listFormats
  | "list-formats" :: argument :: _ =>
      if asksHelp argument then some (.help .listFormats) else none
  | "help" :: words => (Topic.ofWords? words).map .help
  | argument :: _ =>
      if asksVersion argument then some .version
      else if asksHelp argument then some (.help .program)
      else none

structure Report where
  exitCode : Nat
  output : String
  notes : List String
deriving DecidableEq, Repr

namespace Report

def failure (notes : List String) : Report := ⟨1, "", notes⟩

end Report

/-- The files that there are, by their paths. -/
abbrev Files := String → Option ByteArray

/-- What may be left out at the end of the path of a settings file. -/
def settingsEnding : String := ".toml"

/-- The settings file of a path, or else of the path with the ending of settings files. Unlike a
source, it need not be text as a whole. -/
def settingsFile? (files : Files) (path : String) : Option ByteArray :=
  (files path).orElse fun _ => files (path ++ settingsEnding)

def Request.layers (request : Request) (files : Files) : Settings.Layers :=
  let layers := match request.config with
    | some path =>
        Settings.Layers.none.withFile ⟨(settingsFile? files path).map Text.lossy, true⟩
    | none => .none
  match request.format with
  | some format => layers.withOverride Settings.formatKey (.text format)
  | none => layers

def endLine (output : String) : String :=
  if output.toList.getLast? = some '\n' then output else output ++ "\n"

def render (file : Option ByteArray) (view : View) (options : RenderOptions) :
    List String × Except String String :=
  match view.stage with
  | .tokens =>
      match view.renderFile file options with
      | .ok output => ([], .ok output)
      | .error error => ([], .error error.message)
  | .tree =>
      match Root.parseFile file with
      | .error error => ([], .error error.message)
      | .ok root =>
          let note := "symbols: " ++ toString root.children.length ++ " top-level, " ++
            toString root.size ++ " total"
          match root.render view.format options with
          | .ok output => ([note], .ok output)
          | .error error => ([note], .error error.message)

def runParse (path : String) (request : Request) (files : Files) : Report :=
  match (request.layers files).build with
  | .error error => .failure ["Configuration error: " ++ error.message]
  | .ok settings =>
      match View.ofName settings.format with
      | .error error =>
          .failure ["Error: " ++ error.message,
            "Run '" ++ programName ++ " list-formats' to see the available formats."]
      | .ok view =>
          let (treeNotes, result) := render (files path) view settings.renderOptions
          let notes :=
            if request.verbose then
              ["input: " ++ path, "output format: " ++ view.name] ++ treeNotes
            else []
          match result with
          | .ok output => ⟨0, endLine output, notes⟩
          | .error message => .failure (notes ++ [path ++ ": " ++ message])

def formatListing : String :=
  "Available formats:\n\n" ++
    String.join (View.offered.map fun view => "  " ++ view.name ++ "\n")

def usage : List String :=
  ["Usage: " ++ programName ++ " parse <path> [-f <format>] [-c <file>] [-v]",
    "       " ++ programName ++ " list-formats",
    "       " ++ programName ++ " --version"]

def run (arguments : List String) (files : Files) : Report :=
  match Invocation.ofArguments arguments with
  | none => ⟨2, "", usage⟩
  | some .version => ⟨0, programName ++ " " ++ version ++ "\n", []⟩
  | some (.help topic) => ⟨0, topic.page.text, []⟩
  | some .listFormats => ⟨0, formatListing, []⟩
  | some (.parse path request) => runParse path request files

def neededFiles (arguments : List String) : List String :=
  match Invocation.ofArguments arguments with
  | some (.parse path request) =>
      path :: request.config.toList.flatMap fun path => [path, path ++ settingsEnding]
  | _ => []

end KernelMenu.CommandLine

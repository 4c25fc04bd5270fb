/-!
The pages that explain the command line. A page says what a command is for, how it is called, and
then what its parts mean, in tables of two columns.
-/

namespace KernelMenu.CommandLine

def programName : String := "kextract"

structure HelpTable where
  heading : String
  rows : List (String × String)
deriving DecidableEq, Repr

namespace HelpTable

def width (rows : List (String × String)) : Nat :=
  (rows.map fun (word, _) => word.length).foldl max 0

/-- The meanings stand two places behind the longest word. -/
def text (table : HelpTable) : String :=
  let row (word meaning : String) : String :=
    "  " ++ String.ofList (word.toList.rightpad (width table.rows) ' ') ++ "  " ++ meaning ++ "\n"
  table.heading ++ ":\n" ++ String.join (table.rows.map fun (word, meaning) => row word meaning)

end HelpTable

structure HelpPage where
  purpose : String
  usage : String
  tables : List HelpTable
deriving DecidableEq, Repr

namespace HelpPage

def text (page : HelpPage) : String :=
  page.purpose ++ "\n\nUsage: " ++ programName ++ " " ++ page.usage ++ "\n" ++
    String.join (page.tables.map fun table => "\n" ++ table.text)

end HelpPage

inductive Topic where
  | program | parse | listFormats | help
deriving DecidableEq, Repr

namespace Topic

def command? : Topic → Option String
  | program => none
  | parse => some "parse"
  | listFormats => some "list-formats"
  | help => some "help"

def ofCommand? (word : String) : Option Topic :=
  [parse, listFormats, help].find? fun topic => topic.command? = some word

def purpose : Topic → String
  | program => "A tool for inspecting Kconfig extract files"
  | parse => "Parse a file and print it in the chosen format"
  | listFormats => "List available output formats"
  | help => "Print this message or the help of the given subcommand(s)"

def usage : Topic → String
  | program => "<COMMAND>"
  | parse => "parse [OPTIONS] <path>"
  | listFormats => "list-formats"
  | help => "help [COMMAND]..."

def tables : Topic → List HelpTable
  | program =>
      [⟨"Commands", [("parse", parse.purpose), ("list-formats", listFormats.purpose),
          ("help", help.purpose)]⟩,
        ⟨"Options", [("-h, --help", "Print help"), ("-V, --version", "Print version")]⟩]
  | parse =>
      [⟨"Arguments", [("<path>", "Path to the extract file")]⟩,
        ⟨"Options",
          [("-f, --format <format>", "Output format (e.g., 'ast-treeviz', 'token-simple')"),
            ("-c, --config <config>", "Configuration file layered over the built-in defaults"),
            ("-v, --verbose", "Print diagnostics to stderr"), ("-h, --help", "Print help")]⟩]
  | listFormats => [⟨"Options", [("-h, --help", "Print help")]⟩]
  | help => [⟨"Arguments", [("[COMMAND]...", "Print help for the subcommand(s)")]⟩]

def page (topic : Topic) : HelpPage := ⟨topic.purpose, topic.usage, topic.tables⟩

/-- The topic that the words after the command for help name: without a word the whole program,
else one command. -/
def ofWords? : List String → Option Topic
  | [] => some program
  | [word] => ofCommand? word
  | _ => none

end Topic

end KernelMenu.CommandLine

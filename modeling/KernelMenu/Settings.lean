import KernelMenu.Text.Lowercase
import KernelMenu.Text.Quoted
import KernelMenu.Toml.Reader
import KernelMenu.View

/-!
The settings of the program, in layers: built-in defaults, then files in their order, then
overrides. A later layer wins place by place, and overrides win over all files.
-/

namespace KernelMenu

structure Settings where
  format : String
  spreadJson : Bool
  indent : String
deriving DecidableEq, Repr

namespace Settings

def renderOptions (settings : Settings) : RenderOptions := ⟨settings.spreadJson, settings.indent⟩

def defaults : List (String × Setting) :=
  [("output", .table [("format", .text "ast-treeviz"), ("pretty_json", .flag true)]),
    ("serialize", .table [("indent", .text "  ")])]

end Settings

inductive SettingsError where
  | missingFile
  | badFile
  | badKey
  | wrongType (found wanted key : String)
  | wrongSection (message : String)
deriving DecidableEq, Repr

def SettingsError.message : SettingsError → String
  | missingFile => "the file cannot be read"
  | badFile => "the file is not well-formed"
  | badKey => "the key is not well-formed"
  | wrongType found wanted key =>
      "invalid type: " ++ found ++ ", expected " ++ wanted ++ " for key `" ++ key ++ "`"
  | wrongSection message => message

namespace Setting

/-- A float with a point, as messages about floats have it. -/
def withPoint (text : String) : String :=
  if text.toList.all fun char => char.isDigit || char = '-' then text ++ ".0" else text

def description : Setting → String
  | absent => "unit value"
  | flag value => "boolean `" ++ (if value then "true" else "false") ++ "`"
  | int value => "integer `" ++ toString value ++ "`"
  | float printed _ => "floating point `" ++ withPoint printed ++ "`"
  | text value => "string " ++ Text.quoted value
  | list _ => "sequence"
  | table _ => "map"

def asText (key : String) : Setting → Except SettingsError String
  | .text value => .ok value
  | .flag value => .ok (if value then "true" else "false")
  | .int value => .ok (toString value)
  | .float printed _ => .ok printed
  | other => .error (.wrongType other.description "a string" key)

def trueWords : List String := ["1", "true", "on", "yes"]

def falseWords : List String := ["0", "false", "off", "no"]

/-- A setting as a flag: numbers other than zero hold, and eight words are understood. -/
def asFlag (key : String) : Setting → Except SettingsError Bool
  | .flag value => .ok value
  | .int value => .ok (value ≠ 0)
  | .float _ isZero => .ok (!isZero)
  | .text value =>
      let word := Text.lower value
      if trueWords.contains word then .ok true
      else if falseWords.contains word then .ok false
      else .error (.wrongType (text word).description "a boolean" key)
  | other => .error (.wrongType other.description "a boolean" key)

end Setting

namespace Settings

def formatKey : Key := [.name "output", .name "format"]

/-- A section of the settings: its name in files, its name in messages, and its fields. -/
structure Section where
  name : String
  title : String
  fields : List String

def output : Section := ⟨"output", "OutputConfig", ["format", "pretty_json"]⟩

def serialize : Section := ⟨"serialize", "SerializeConfig", ["indent"]⟩

/-- What a section says of one of its fields: its value with its full key, or the message for the
field that is not there. -/
inductive Finding where
  | present (key : String) (value : Setting)
  | lacking (message : String)

/-- Looks for a field of a section. A list has to hold the fields in order. -/
def Section.find (part : Section) (root : Setting) (field : String) :
    Except SettingsError Finding :=
  match root.get? part.name with
  | none => .error (.wrongSection ("missing field `" ++ part.name ++ "`"))
  | some (.table entries) =>
      .ok (match entries.lookup field with
        | some value => .present (part.name ++ "." ++ field) value
        | none => .lacking ("missing field `" ++ field ++ "`"))
  | some (.list items) =>
      let index := part.fields.idxOf field
      .ok (match items[index]? with
        | some value => .present (part.name ++ "[" ++ toString index ++ "]") value
        | none =>
            let plural := if part.fields.length = 1 then "" else "s"
            .lacking ("invalid length " ++ toString index ++ ", expected struct " ++ part.title ++
              " with " ++ toString part.fields.length ++ " element" ++ plural))
  | some other =>
      .error (.wrongSection
        ("invalid type: " ++ other.description ++ ", expected struct " ++ part.title))

def Finding.readAs {Field : Type} (read : String → Setting → Except SettingsError Field) :
    Finding → Except SettingsError (Except SettingsError Field)
  | .present key value => (read key value).map .ok
  | .lacking message => .ok (.error (.wrongSection message))

/-- A value of a wrong type counts before a field that is lacking, within a section. -/
def ofSetting (root : Setting) : Except SettingsError Settings := do
  let format? ← (← output.find root "format").readAs Setting.asText
  let spreadJson? ← (← output.find root "pretty_json").readAs Setting.asFlag
  let format ← format?
  let spreadJson ← spreadJson?
  let indent ← (← (← serialize.find root "indent").readAs Setting.asText)
  .ok { format, spreadJson, indent }

structure File where
  content : Option String
  required : Bool
deriving DecidableEq, Repr

/-- Layers above the defaults, each kind in the order in which it was added. -/
structure Layers where
  files : List File
  overrides : List (Key × Setting)

namespace Layers

def none : Layers := ⟨[], []⟩

def withFile (layers : Layers) (file : File) : Layers :=
  { layers with files := layers.files ++ [file] }

/-- A second override of a key takes the place of the first one. -/
def replace (key : Key) (value : Setting) : List (Key × Setting) → List (Key × Setting)
  | [] => [(key, value)]
  | (other, old) :: overrides =>
      if other = key then (key, value) :: overrides
      else (other, old) :: replace key value overrides

def withOverride (layers : Layers) (key : Key) (value : Setting) : Layers :=
  { layers with overrides := replace key value layers.overrides }

def withNamedOverride (layers : Layers) (name : String) (value : Setting) :
    Except SettingsError Layers :=
  match Key.ofText? name with
  | some key => .ok (layers.withOverride key value)
  | Option.none => .error .badKey

end Layers

def File.entries (file : File) : Except SettingsError (List (String × Setting)) :=
  match file.content with
  | none => if file.required then .error .missingFile else .ok []
  | some content =>
      match Toml.read content with
      | some entries => .ok entries
      | none => .error .badFile

/-- Adds one entry of a file. A name that has the form of a key counts as one. -/
def addEntry (root : Setting) (name : String) (value : Setting) : Setting :=
  match Key.ofText? name with
  | some key => Setting.put value key root
  | none => Setting.assign name value root

def addFile (root : Setting) (file : File) : Except SettingsError Setting :=
  match file.entries with
  | .ok entries => .ok (entries.foldl (fun root (name, value) => addEntry root name value) root)
  | .error error => .error error

namespace Layers

def merged (layers : Layers) : Except SettingsError Setting := do
  let root ← layers.files.foldlM addFile (.table defaults)
  .ok (layers.overrides.foldl (fun root (key, value) => Setting.put value key root) root)

def build (layers : Layers) : Except SettingsError Settings := do
  ofSetting (← layers.merged)

end Layers

end Settings

end KernelMenu

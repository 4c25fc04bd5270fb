import KernelMenu.Setting
import KernelMenu.Toml.Date

/-!
The values of settings files, and the settings that they stand for. A date stands for its text. So
does a table whose first key is the one reserved for dates; it has to hold the text of a date
there, and what follows it does not count.
-/

namespace KernelMenu.Toml

/-- A float is kept as the text it is printed as. -/
inductive Value where
  | text (value : String)
  | flag (value : Bool)
  | int (value : Int)
  | float (text : String) (isZero : Bool)
  | date (date : Date)
  | list (items : List Value)
  | table (entries : List (String × Value))
deriving Repr, Inhabited

namespace Value

def dateKey : String := "$__toml_private_datetime"

def date? : Value → Option Date
  | .text value => Date.ofText? value
  | _ => none

mutual

def setting? : Value → Option Setting
  | .text value => some (.text value)
  | .flag value => some (.flag value)
  | .int value => some (.int value)
  | .float printed isZero => some (.float printed isZero)
  | .date moment => some (.text moment.text)
  | .list items => (settings? items).map .list
  | .table entries =>
      match entries with
      | (name, value) :: _ =>
          if name = dateKey then (date? value).map fun date => .text date.text
          else (entrySettings? entries).map .table
      | [] => some (.table [])

def settings? : List Value → Option (List Setting)
  | [] => some []
  | value :: values => do some ((← setting? value) :: (← settings? values))

def entrySettings? : List (String × Value) → Option (List (String × Setting))
  | [] => some []
  | (name, value) :: entries => do
      some ((name, ← setting? value) :: (← entrySettings? entries))

end

end Value

end KernelMenu.Toml

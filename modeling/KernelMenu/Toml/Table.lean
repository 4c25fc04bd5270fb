import KernelMenu.Toml.Value

/-!
Filling the tables of a settings file. A table remembers how it came to be: through its own
header, through the header of a table below it, or through a key with points. No key is given two
values, and no table is described in two ways.
-/

namespace KernelMenu.Toml

/-- How a table came to be. -/
inductive Origin where
  | header | implied | dotted
deriving DecidableEq, Repr

/-- A finished value, a table that may still grow, or a list of tables of which the last one may. -/
inductive Node where
  | value (value : Value)
  | table (origin : Origin) (entries : List (String × Node))
  | tables (items : List (List (String × Node)))

abbrev Entries := List (String × Node)

mutual

def Node.toValue : Node → Value
  | .value value => value
  | .table _ entries => .table (entryValues entries)
  | .tables items => .list (tableValues items)

def entryValues : List (String × Node) → List (String × Value)
  | [] => []
  | (name, node) :: entries => (name, node.toValue) :: entryValues entries

def tableValues : List (List (String × Node)) → List Value
  | [] => []
  | entries :: items => .table (entryValues entries) :: tableValues items

end

/-- Changes the entry of a name, or adds one; refuses if the change does. -/
def alter (name : String) (change : Option Node → Option Node) : Entries → Option Entries
  | [] => (change none).map fun node => [(name, node)]
  | (other, node) :: entries =>
      if other = name then (change (some node)).map fun node => (name, node) :: entries
      else (alter name change entries).map ((other, node) :: ·)

def alterLast (change : Entries → Option Entries) : List Entries → Option (List Entries)
  | [] => none
  | [last] => (change last).map ([·])
  | first :: items => (alterLast change items).map (first :: ·)

/-- Changes the table that a path leads to. New tables on the way have the given origin; a key
with points does not pass through a table that has a header. -/
def within (origin : Origin) (change : Origin → Entries → Option Entries) :
    List String → Origin → Entries → Option Entries
  | [], here, entries => change here entries
  | name :: path, _, entries => alter name (fun
      | none => (within origin change path origin []).map (.table origin)
      | some (.table old inner) =>
          if origin = .dotted && old = .header then none
          else (within origin change path old inner).map (.table old)
      | some (.tables items) =>
          (alterLast (within origin change path .header) items).map .tables
      | some (.value _) => none) entries

/-- Gives a key a value. The table that a key with points ends in has to come from such keys. -/
def assign (key : List String) (value : Value) (entries : Entries) : Option Entries :=
  match key.getLast? with
  | none => none
  | some name =>
      let path := key.dropLast
      within .dotted (fun origin entries =>
        if !path.isEmpty && origin ≠ .dotted then none
        else alter name (fun
          | none => some (.value value)
          | some _ => none) entries) path .header entries

/-- Opens the table of a header, which has to be new or so far only implied. It stands after all
other entries then, as if it had not been there before. -/
def openTable (key : List String) (entries : Entries) : Option Entries :=
  match key.getLast? with
  | none => none
  | some name =>
      within .implied (fun _ entries =>
        let opened (inner : Entries) : Entries :=
          entries.filter (fun entry => entry.1 ≠ name) ++ [(name, .table .header inner)]
        match entries.lookup name with
        | none => some (opened [])
        | some (.table .implied inner) => some (opened inner)
        | some _ => none) key.dropLast .header entries

def openItem (key : List String) (entries : Entries) : Option Entries :=
  match key.getLast? with
  | none => none
  | some name =>
      within .implied (fun _ entries => alter name (fun
        | none => some (.tables [[]])
        | some (.tables items) => some (.tables (items ++ [[]]))
        | some _ => none) entries) key.dropLast .header entries

inductive Statement where
  | assign (key : List String) (value : Value)
  | openTable (key : List String)
  | openItem (key : List String)

structure Progress where
  entries : Entries
  opened : List String

def Progress.add (progress : Progress) : Statement → Option Progress
  | .assign key value =>
      (within .implied (fun _ entries => Toml.assign key value entries) progress.opened .header
        progress.entries).map fun entries => ⟨entries, progress.opened⟩
  | .openTable key => (Toml.openTable key progress.entries).map fun entries => ⟨entries, key⟩
  | .openItem key => (Toml.openItem key progress.entries).map fun entries => ⟨entries, key⟩

def collect (statements : List Statement) : Option Value :=
  (statements.foldlM Progress.add ⟨[], []⟩).map fun progress =>
    .table (entryValues progress.entries)

def collectInline (pairs : List (List String × Value)) : Option Value :=
  (pairs.foldlM (fun entries (key, value) => Toml.assign key value entries) []).map
    fun entries => .table (entryValues entries)

end KernelMenu.Toml

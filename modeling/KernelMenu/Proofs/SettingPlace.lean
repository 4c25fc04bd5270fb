import KernelMenu.Settings

/-!
Where the settings stand. Each field has a place in a section, and a value of one kind. Giving a
field a value changes what stands at its place and nowhere else; merging a section does so for all
fields that the section has.
-/

namespace KernelMenu

theorem lookup_pair {Name Value : Type} [DecidableEq Name] [BEq Name] [LawfulBEq Name]
    (name other : Name) (value : Value) (pairs : List (Name × Value)) :
    ((other, value) :: pairs).lookup name =
      if name = other then some value else pairs.lookup name := by
  rw [List.lookup_cons]
  by_cases same : name = other
  · rw [if_pos same, beq_iff_eq.2 same]
  · rw [if_neg same, beq_eq_false_iff_ne.2 same]

/-- A look-up behind a change of one name, which replaces its first pair or adds one at the end. -/
theorem lookup_changed {Name Value : Type} [DecidableEq Name] [BEq Name] [LawfulBEq Name]
    {name : Name} {value : Value} (change : List (Name × Value) → List (Name × Value))
    (nil : change [] = [(name, value)])
    (cons : ∀ first old pairs, change ((first, old) :: pairs) =
      if first = name then (name, value) :: pairs else (first, old) :: change pairs)
    (other : Name) (pairs : List (Name × Value)) :
    (change pairs).lookup other = if other = name then some value else pairs.lookup other := by
  induction pairs with
  | nil => rw [nil, lookup_pair]
  | cons pair pairs induction =>
      obtain ⟨first, old⟩ := pair
      rw [cons, lookup_pair other first old]
      split
      case isTrue here =>
        subst here
        rw [lookup_pair]
        split <;> rfl
      case isFalse here =>
        rw [lookup_pair, induction]
        by_cases same : other = first
        · rw [if_pos same, if_pos same, if_neg (same ▸ here)]
        · rw [if_neg same, if_neg same]

section Last

variable {Item Value : Type} {value? : Item → Option Value} {item : Item} {items : List Item}

/-- The last value that is found along a list. -/
def lastSome? (value? : Item → Option Value) (items : List Item) : Option Value :=
  (items.filterMap value?).getLast?

theorem last_some_cons :
    lastSome? value? (item :: items) = (lastSome? value? items).or (value? item) := by
  rw [lastSome?, List.filterMap_cons]
  cases value? item with
  | none => exact (Option.or_none).symm
  | some value =>
      dsimp only
      rw [List.getLast?_cons]
      cases found : (items.filterMap value?).getLast? <;> rw [lastSome?, found] <;> rfl

theorem exists_of_last_some {value : Value} (found : lastSome? value? items = some value) :
    ∃ item ∈ items, value? item = some value :=
  List.mem_filterMap.1 (List.mem_of_getLast? found)

end Last

namespace Setting

theorem lookup_insert (name other : String) (value : Setting) (entries : List (String × Setting)) :
    (insert name value entries).lookup other =
      if other = name then some value else entries.lookup other :=
  lookup_changed (insert name value) rfl (fun _ _ _ => rfl) other entries

theorem assign_other {value : Setting} (other : ∀ entries, value ≠ table entries) (name : String)
    (target : Setting) :
    assign name value target = table (insert name.toLower value target.entries) := by
  rw [assign]
  exact other

end Setting

namespace Settings

inductive Field where
  | format | spreadJson | indent
deriving DecidableEq, Repr

namespace Field

def home : Field → String
  | format | spreadJson => output.name
  | indent => serialize.name

def name : Field → String
  | format => "format"
  | spreadJson => "pretty_json"
  | indent => "indent"

def key (field : Field) : Key := [.name field.home, .name field.name]

/-- A value of the kind that the field has. -/
def Takes (value : Setting) : Field → Prop
  | format | indent => ∃ text, value = .text text
  | spreadJson => ∃ flag, value = .flag flag

theorem Takes.ne_table {field : Field} {value : Setting} (takes : field.Takes value)
    (entries : List (String × Setting)) : value ≠ .table entries := by
  cases field <;> obtain ⟨_, rfl⟩ := takes <;> exact nofun

theorem name_injective {field other : Field} (names : field.name = other.name) :
    field = other := by
  cases field <;> cases other <;> first | rfl | exact absurd names (by decide)

theorem key_injective {field other : Field} (same : field.key = other.key) : field = other := by
  obtain ⟨-, rest⟩ := List.cons.inj same
  exact name_injective (KeyStep.name.inj (List.cons.inj rest).1)

theorem lower_name (field : Field) : field.name.toLower = field.name := by
  cases field <;> decide +kernel

theorem lower_home (field : Field) : field.home.toLower = field.home := by
  cases field <;> decide +kernel

theorem key_of_home (field : Field) : Key.ofText? field.home = some [.name field.home] := by
  cases field <;> decide +kernel

end Field

end Settings

namespace Setting

open Settings

/-- What stands at the place of a field. -/
def at? (root : Setting) (field : Field) : Option Setting :=
  (root.get? field.home).bind (get? field.name)

def Sectioned (root : Setting) : Prop :=
  ∀ field : Field, ∃ entries, root.get? field.home = some (table entries)

variable {root value : Setting} {field : Field}

theorem at_insert (root : Setting) (home : String) (fields : List (String × Setting))
    (field : Field) : (table (insert home (table fields) root.entries)).at? field =
      if field.home = home then fields.lookup field.name else root.at? field := by
  rw [at?, get?, entries, lookup_insert]
  split <;> rfl

theorem sectioned_insert (sectioned : root.Sectioned) (home : String)
    (fields : List (String × Setting)) :
    (table (insert home (table fields) root.entries)).Sectioned := by
  intro field
  rw [get?, entries, lookup_insert]
  split
  · exact ⟨fields, rfl⟩
  · exact sectioned field

theorem put_key (sectioned : root.Sectioned) (takes : field.Takes value) : ∃ fields,
    root.get? field.home = some (table fields) ∧ put value field.key root =
      table (insert field.home (table (insert field.name value fields)) root.entries) := by
  obtain ⟨fields, found⟩ := sectioned field
  refine ⟨fields, found, ?_⟩
  rw [Field.key, put, put, found, assign_other takes.ne_table, field.lower_name]
  · rfl
  · exact nofun

/-- A field that is given a value has it, and all other fields are as before. -/
theorem at_put (sectioned : root.Sectioned) (takes : field.Takes value) (other : Field) :
    (put value field.key root).at? other =
      if other = field then some value else root.at? other := by
  obtain ⟨fields, found, whole⟩ := put_key sectioned takes
  rw [whole, at_insert, lookup_insert]
  by_cases same : other = field
  · rw [if_pos same, same, if_pos rfl, if_pos rfl]
  · rw [if_neg same, if_neg (mt Field.name_injective same)]
    split
    case isTrue home => rw [at?, home, found]; rfl
    case isFalse => rfl

theorem sectioned_put (sectioned : root.Sectioned) (takes : field.Takes value) :
    (put value field.key root).Sectioned := by
  obtain ⟨fields, -, whole⟩ := put_key sectioned takes
  rw [whole]
  exact sectioned_insert sectioned _ _

end Setting

namespace Settings

open Setting

/-- Fields of a section, each with a value of its kind. -/
def HasFields (home : String) (fields : List (String × Setting)) : Prop :=
  ∀ pair ∈ fields, ∃ field : Field, field.home = home ∧ field.name = pair.1 ∧ field.Takes pair.2

/-- The entries of a file that sets some of the fields and nothing else. -/
def HasSections (entries : List (String × Setting)) : Prop :=
  ∀ entry ∈ entries, (∃ field : Field, field.home = entry.1) ∧
    ∃ fields, entry.2 = .table fields ∧ HasFields entry.1 fields

def named? (name : String) (pair : String × Setting) : Option Setting :=
  if name = pair.1 then some pair.2 else none

def inSection? (field : Field) (entry : String × Setting) : Option Setting :=
  if field.home = entry.1 then lastSome? (named? field.name) entry.2.entries else none

/-- What entries give a field. -/
def given? (field : Field) (entries : List (String × Setting)) : Option Setting :=
  lastSome? (inSection? field) entries

section Sections

variable {home : String} {fields : List (String × Setting)} {entries : List (String × Setting)}
  {root : Setting} {field : Field} {value : Setting}

theorem takes_of_section (has : HasFields home fields)
    (found : inSection? field (home, .table fields) = some value) : field.Takes value := by
  rw [inSection?] at found
  split at found
  case isTrue =>
    obtain ⟨⟨name, old⟩, member, named⟩ := exists_of_last_some found
    obtain ⟨other, -, same, takes⟩ := has _ member
    rw [named?] at named
    split at named
    case isTrue here =>
      rw [← Option.some.inj named, Field.name_injective (here.trans same.symm)]
      exact takes
    case isFalse => cases named
  case isFalse => cases found

theorem takes_of_given (has : HasSections entries) (found : given? field entries = some value) :
    field.Takes value := by
  obtain ⟨⟨home, inner⟩, member, inside⟩ := exists_of_last_some found
  obtain ⟨-, fields, rfl, has'⟩ := has _ member
  exact takes_of_section has' inside

theorem assign_all_fields (has : HasFields home fields) (olds : List (String × Setting)) :
    ∃ news, assignAll fields (table olds) = table news ∧
      ∀ name, news.lookup name = (lastSome? (named? name) fields).or (olds.lookup name) := by
  induction fields generalizing olds with
  | nil => exact ⟨olds, by rw [assignAll], fun name => rfl⟩
  | cons pair fields induction =>
      obtain ⟨other, value⟩ := pair
      obtain ⟨field, -, named, takes⟩ := has _ List.mem_cons_self
      obtain rfl : field.name = other := named
      obtain ⟨news, merged, found⟩ := induction
        (fun pair member => has pair (List.mem_cons_of_mem _ member))
        (Setting.insert field.name value olds)
      refine ⟨news, ?_, fun name => ?_⟩
      · rw [assignAll, assign_other takes.ne_table, field.lower_name]
        exact merged
      · rw [found, lookup_insert, last_some_cons, Option.or_assoc, named?]
        split <;> rfl

theorem at_add_entry (sectioned : root.Sectioned) (known : ∃ field : Field, field.home = home)
    (has : HasFields home fields) : (addEntry root home (.table fields)).Sectioned ∧
      ∀ field, (addEntry root home (.table fields)).at? field =
        (inSection? field (home, .table fields)).or (root.at? field) := by
  obtain ⟨field, rfl⟩ := known
  obtain ⟨olds, found⟩ := sectioned field
  obtain ⟨news, merged, lookups⟩ := assign_all_fields has olds
  have whole : addEntry root field.home (.table fields) =
      table (Setting.insert field.home (table news) root.entries) := by
    rw [addEntry, field.key_of_home]
    dsimp only
    rw [put, assign, field.lower_home, found, Option.getD_some, merged]
  rw [whole]
  refine ⟨sectioned_insert sectioned _ _, fun other => ?_⟩
  rw [at_insert, inSection?]
  split
  case isTrue same =>
    rw [lookups, at?, same, found]
    rfl
  case isFalse => rfl

/-- What a file sets is set, and all other fields are as before. -/
theorem at_add_entries (sectioned : root.Sectioned) (has : HasSections entries) :
    (entries.foldl (fun root (name, value) => addEntry root name value) root).Sectioned ∧
      ∀ field, (entries.foldl (fun root (name, value) => addEntry root name value) root).at? field =
        (given? field entries).or (root.at? field) := by
  induction entries generalizing root with
  | nil => exact ⟨sectioned, fun field => rfl⟩
  | cons entry entries induction =>
      obtain ⟨home, inner⟩ := entry
      obtain ⟨known, fields, rfl, has'⟩ := has _ List.mem_cons_self
      obtain ⟨sectioned', first⟩ := at_add_entry sectioned known has'
      obtain ⟨sectioned'', rest⟩ := induction sectioned'
        fun entry member => has entry (List.mem_cons_of_mem _ member)
      refine ⟨sectioned'', fun field => ?_⟩
      rw [List.foldl_cons, rest, first, given?, given?, last_some_cons, Option.or_assoc]

end Sections

def value (settings : Settings) : Field → Setting
  | .format => .text settings.format
  | .spreadJson => .flag settings.spreadJson
  | .indent => .text settings.indent

theorem value_injective {settings other : Settings}
    (same : ∀ field, settings.value field = other.value field) : settings = other := by
  have format : settings.format = other.format := Setting.text.inj (same .format)
  have spreadJson : settings.spreadJson = other.spreadJson := Setting.flag.inj (same .spreadJson)
  have indent : settings.indent = other.indent := Setting.text.inj (same .indent)
  cases settings
  cases other
  subst format spreadJson indent
  rfl

theorem find_field {root value : Setting} (part : Section) {field : Field}
    (sectioned : root.Sectioned) (home : part.name = field.home)
    (found : root.at? field = some value) :
    ∃ key, part.find root field.name = .ok (.present key value) := by
  obtain ⟨fields, here⟩ := sectioned field
  rw [at?, here] at found
  have inside : fields.lookup field.name = some value := found
  refine ⟨part.name ++ "." ++ field.name, ?_⟩
  rw [Section.find, home, here]
  dsimp only
  rw [inside]

theorem of_setting_sectioned {root : Setting} (sectioned : root.Sectioned)
    (takes : ∀ field, ∃ value, root.at? field = some value ∧ field.Takes value) :
    ∃ settings, ofSetting root = .ok settings ∧
      ∀ field, root.at? field = some (settings.value field) := by
  obtain ⟨_, format, text, rfl⟩ := takes .format
  obtain ⟨_, spreadJson, flag, rfl⟩ := takes .spreadJson
  obtain ⟨_, indent, margin, rfl⟩ := takes .indent
  refine ⟨⟨text, flag, margin⟩, ?_, ?_⟩
  · obtain ⟨key, first⟩ := find_field output sectioned rfl format
    obtain ⟨key', second⟩ := find_field output sectioned rfl spreadJson
    obtain ⟨key'', third⟩ := find_field serialize sectioned rfl indent
    dsimp only [Field.name] at first second third
    simp only [ofSetting, first, second, third, bind, Except.bind, Finding.readAs, asText, asFlag,
      Except.map]
  · rintro ⟨⟩
    · exact format
    · exact spreadJson
    · exact indent

end Settings

end KernelMenu

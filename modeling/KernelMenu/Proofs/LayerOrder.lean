import KernelMenu.Proofs.SettingPlace

/-!
The order of the layers of settings. Each field has the value of its last override, or else of the
last file that sets it, or else the built-in one, in whatever order files and overrides were added.
-/

namespace KernelMenu.Settings

open Setting

inductive Step where
  | file (file : File)
  | override (name : String) (value : Setting)

/-- What a file gives a field. -/
def File.value? (field : Field) (file : File) : Option Setting := do
  given? field (← Toml.read (← file.content))

/-- A file that exists sets some of the fields and nothing else; one that does not, need not. -/
def File.IsProper (file : File) : Prop :=
  match file.content with
  | none => file.required = false
  | some content => ∃ entries, Toml.read content = some entries ∧ HasSections entries

namespace Step

def file? : Step → Option File
  | .file added => some added
  | .override _ _ => none

/-- An override gives a field a value of its kind. -/
def IsProper : Step → Prop
  | .file added => added.IsProper
  | .override name value => ∃ field : Field, Key.ofText? name = some field.key ∧ field.Takes value

def fileValue? (field : Field) (step : Step) : Option Setting := step.file?.bind (File.value? field)

def overrideValue? (field : Field) : Step → Option Setting
  | .file _ => none
  | .override name value => if Key.ofText? name = some field.key then some value else none

/-- No field is given a value by both steps in the same kind of layer. -/
def Apart (first second : Step) : Prop :=
  ∀ field, (first.fileValue? field = none ∨ second.fileValue? field = none) ∧
    (first.overrideValue? field = none ∨ second.overrideValue? field = none)

end Step

def Layers.add (layers : Layers) : Step → Except SettingsError Layers
  | .file added => .ok (layers.withFile added)
  | .override name value => layers.withNamedOverride name value

/-- The settings after a row of steps. -/
def load (steps : List Step) : Except SettingsError Settings := do
  (← steps.foldlM Layers.add .none).build

/-- The value of a field that the layers come to. -/
def chosen? (steps : List Step) (field : Field) : Option Setting :=
  (lastSome? (Step.overrideValue? field) steps).or
    ((lastSome? (Step.fileValue? field) steps).or (given? field defaults))

section Files

variable {file : File} {files : List File} {root : Setting} {field : Field} {value : Setting}

theorem takes_of_file (proper : file.IsProper) (found : file.value? field = some value) :
    field.Takes value := by
  obtain ⟨content, required⟩ := file
  cases content with
  | none => cases found
  | some content =>
      obtain ⟨entries, read, has⟩ := proper
      simp only [File.value?, read, Option.bind_eq_bind, Option.bind_some] at found
      exact takes_of_given has found

theorem at_add_file (sectioned : root.Sectioned) (proper : file.IsProper) :
    ∃ root', addFile root file = .ok root' ∧ root'.Sectioned ∧
      ∀ field, root'.at? field = (file.value? field).or (root.at? field) := by
  obtain ⟨content, required⟩ := file
  cases content with
  | none =>
      obtain rfl : required = false := proper
      exact ⟨root, rfl, sectioned, fun field => rfl⟩
  | some content =>
      obtain ⟨entries, read, has⟩ := proper
      obtain ⟨sectioned', found⟩ := at_add_entries sectioned has
      refine ⟨_, ?_, sectioned', fun field => ?_⟩
      · simp only [addFile, File.entries, read]
      · rw [found]
        simp only [File.value?, read, Option.bind_eq_bind, Option.bind_some]

theorem at_add_files (sectioned : root.Sectioned) (proper : ∀ file ∈ files, file.IsProper) :
    ∃ root', files.foldlM addFile root = .ok root' ∧ root'.Sectioned ∧
      ∀ field, root'.at? field = (lastSome? (File.value? field) files).or (root.at? field) := by
  induction files generalizing root with
  | nil => exact ⟨root, rfl, sectioned, fun field => rfl⟩
  | cons file files induction =>
      obtain ⟨middle, added, sectioned', first⟩ :=
        at_add_file sectioned (proper _ List.mem_cons_self)
      obtain ⟨last, run, sectioned'', rest⟩ := induction sectioned'
        fun file member => proper file (List.mem_cons_of_mem _ member)
      refine ⟨last, ?_, sectioned'', fun field => ?_⟩
      · rw [List.foldlM_cons, added]
        exact run
      · rw [rest, first, last_some_cons, Option.or_assoc]

end Files

section Overrides

theorem lookup_replace (key other : Key) (value : Setting) (overrides : List (Key × Setting)) :
    (Layers.replace key value overrides).lookup other =
      if other = key then some value else overrides.lookup other :=
  lookup_changed (Layers.replace key value) rfl (fun _ _ _ => rfl) other overrides

/-- Overrides of fields with values of their kinds, at most one for each. -/
structure AreOverrides (overrides : List (Key × Setting)) : Prop where
  once : (overrides.map Prod.fst).Nodup
  fields : ∀ pair ∈ overrides, ∃ field : Field, field.key = pair.1 ∧ field.Takes pair.2

variable {overrides : List (Key × Setting)} {root value : Setting} {field : Field}

theorem mem_replace {pair : Key × Setting} {key : Key}
    (member : pair ∈ Layers.replace key value overrides) :
    pair = (key, value) ∨ pair ∈ overrides := by
  induction overrides with
  | nil => exact .inl (List.mem_singleton.1 member)
  | cons override overrides induction =>
      rw [Layers.replace] at member
      split at member
      · exact (List.mem_cons.1 member).imp_right (List.mem_cons_of_mem _)
      · rcases List.mem_cons.1 member with rfl | later
        · exact .inr List.mem_cons_self
        · exact (induction later).imp_right (List.mem_cons_of_mem _)

theorem nodup_replace {key : Key} (once : (overrides.map Prod.fst).Nodup) :
    ((Layers.replace key value overrides).map Prod.fst).Nodup := by
  induction overrides with
  | nil => exact List.nodup_cons.2 ⟨List.not_mem_nil, List.nodup_nil⟩
  | cons override overrides induction =>
      obtain ⟨other, old⟩ := override
      obtain ⟨new, rest⟩ := List.nodup_cons.1 once
      rw [Layers.replace]
      split
      case isTrue same => exact same ▸ once
      case isFalse different =>
        refine List.nodup_cons.2 ⟨fun member => ?_, induction rest⟩
        obtain ⟨pair, found, same⟩ := List.mem_map.1 member
        rcases mem_replace found with rfl | later
        · exact different same.symm
        · exact new (List.mem_map.2 ⟨pair, later, same⟩)

theorem AreOverrides.replace (are : AreOverrides overrides) (takes : field.Takes value) :
    AreOverrides (Layers.replace field.key value overrides) := by
  refine ⟨nodup_replace are.once, fun pair member => ?_⟩
  rcases mem_replace member with rfl | old
  · exact ⟨field, rfl, takes⟩
  · exact are.fields pair old

theorem at_override (sectioned : root.Sectioned) (are : AreOverrides overrides) :
    (overrides.foldl (fun root (key, value) => put value key root) root).Sectioned ∧
      ∀ field : Field,
        (overrides.foldl (fun root (key, value) => put value key root) root).at? field =
          (overrides.lookup field.key).or (root.at? field) := by
  induction overrides generalizing root with
  | nil => exact ⟨sectioned, fun field => rfl⟩
  | cons override overrides induction =>
      obtain ⟨key, value⟩ := override
      obtain ⟨new, once⟩ := List.nodup_cons.1 are.once
      obtain ⟨overridden, same, takes⟩ := are.fields _ List.mem_cons_self
      obtain rfl : overridden.key = key := same
      obtain ⟨sectioned', rest⟩ := induction (sectioned_put sectioned takes)
        ⟨once, fun pair member => are.fields pair (List.mem_cons_of_mem _ member)⟩
      refine ⟨sectioned', fun field => ?_⟩
      rw [List.foldl_cons, rest, at_put sectioned takes, lookup_pair]
      by_cases here : field = overridden
      -- No later override has the same key, so this one stands.
      · have absent : overrides.lookup overridden.key = none := List.lookup_eq_none_iff.2
          fun pair member => bne_iff_ne.2 fun same =>
            new (List.mem_map.2 ⟨pair, member, same.symm⟩)
        rw [here, if_pos rfl, if_pos rfl, absent]
        rfl
      · rw [if_neg here, if_neg (mt Field.key_injective here)]

end Overrides

section Steps

variable {step : Step} {steps : List Step} {layers : Layers} {field : Field} {value : Setting}

theorem add_step (proper : step.IsProper) (are : AreOverrides layers.overrides) :
    ∃ added, layers.add step = .ok added ∧ added.files = layers.files ++ step.file?.toList ∧
      AreOverrides added.overrides ∧ ∀ field : Field, added.overrides.lookup field.key =
        (step.overrideValue? field).or (layers.overrides.lookup field.key) := by
  cases step with
  | file file => exact ⟨_, rfl, rfl, are, fun field => rfl⟩
  | override name value =>
      obtain ⟨overridden, key, takes⟩ := proper
      refine ⟨layers.withOverride overridden.key value, ?_, (List.append_nil _).symm,
        are.replace takes, fun field => ?_⟩
      · rw [Layers.add, Layers.withNamedOverride, key]
      · rw [Layers.withOverride, lookup_replace, Step.overrideValue?, key]
        by_cases same : field.key = overridden.key
        · rw [if_pos same, if_pos (congrArg some same.symm)]
          rfl
        · rw [if_neg same, if_neg fun other => same (Option.some.inj other).symm]
          rfl

theorem add_steps (proper : ∀ step ∈ steps, step.IsProper) (are : AreOverrides layers.overrides) :
    ∃ added, steps.foldlM Layers.add layers = .ok added ∧
      added.files = layers.files ++ steps.filterMap Step.file? ∧ AreOverrides added.overrides ∧
      ∀ field : Field, added.overrides.lookup field.key =
        (lastSome? (Step.overrideValue? field) steps).or (layers.overrides.lookup field.key) := by
  induction steps generalizing layers with
  | nil => exact ⟨layers, rfl, (List.append_nil _).symm, are, fun field => rfl⟩
  | cons step steps induction =>
      obtain ⟨middle, one, files, are', lookups⟩ := add_step (proper _ List.mem_cons_self) are
      obtain ⟨last, run, files', are'', lookups'⟩ := induction
        (fun step member => proper step (List.mem_cons_of_mem _ member)) are'
      refine ⟨last, ?_, ?_, are'', fun field => ?_⟩
      · rw [List.foldlM_cons, one]
        exact run
      · rw [files', files, List.append_assoc, List.filterMap_cons]
        cases step.file? <;> rfl
      · rw [lookups', lookups, last_some_cons, Option.or_assoc]

theorem at_defaults (field : Field) : (table defaults).at? field = given? field defaults := by
  cases field <;> rfl

theorem takes_defaults (field : Field) :
    ∃ value, given? field defaults = some value ∧ field.Takes value := by
  cases field <;> exact ⟨_, rfl, _, rfl⟩

theorem last_of_files (field : Field) (steps : List Step) :
    lastSome? (File.value? field) (steps.filterMap Step.file?) =
      lastSome? (Step.fileValue? field) steps := by
  rw [lastSome?, List.filterMap_filterMap]
  rfl

theorem takes_of_override (proper : step.IsProper)
    (found : step.overrideValue? field = some value) : field.Takes value := by
  cases step with
  | file file => cases found
  | override name given =>
      obtain ⟨other, key, takes⟩ := proper
      rw [Step.overrideValue?, key] at found
      split at found
      case isTrue same =>
        rw [← Option.some.inj found, ← Field.key_injective (Option.some.inj same)]
        exact takes
      case isFalse => cases found

theorem takes_of_file_step (proper : step.IsProper) (found : step.fileValue? field = some value) :
    field.Takes value := by
  cases step with
  | file file => exact takes_of_file proper found
  | override name given => cases found

theorem takes_chosen (proper : ∀ step ∈ steps, step.IsProper) (field : Field) :
    ∃ value, chosen? steps field = some value ∧ field.Takes value := by
  rw [chosen?]
  cases overridden : lastSome? (Step.overrideValue? field) steps with
  | some value =>
      obtain ⟨step, member, found⟩ := exists_of_last_some overridden
      exact ⟨value, rfl, takes_of_override (proper step member) found⟩
  | none =>
      cases filed : lastSome? (Step.fileValue? field) steps with
      | some value =>
          obtain ⟨step, member, found⟩ := exists_of_last_some filed
          exact ⟨value, rfl, takes_of_file_step (proper step member) found⟩
      | none => exact takes_defaults field

theorem load_ok (proper : ∀ step ∈ steps, step.IsProper) :
    ∃ settings, load steps = .ok settings ∧
      ∀ field, chosen? steps field = some (settings.value field) := by
  obtain ⟨layers, run, files, are, lookups⟩ := add_steps proper
    (show AreOverrides Layers.none.overrides from ⟨List.nodup_nil, nofun⟩)
  have proper' : ∀ file ∈ layers.files, file.IsProper := by
    intro file member
    rw [files] at member
    obtain ⟨step, member', here⟩ := List.mem_filterMap.1 member
    cases step with
    | file other => exact Option.some.inj here ▸ proper _ member'
    | override name value => cases here
  have sectioned : (table defaults).Sectioned := by
    rintro ⟨⟩ <;> exact ⟨_, rfl⟩
  obtain ⟨root, added, sectioned', filed⟩ := at_add_files sectioned proper'
  obtain ⟨sectioned'', overridden⟩ := at_override sectioned' are
  have chosen : ∀ field : Field, (layers.overrides.foldl
      (fun root (key, value) => put value key root) root).at? field = chosen? steps field := by
    intro field
    rw [overridden, filed, files, lookups, at_defaults, chosen?, ← last_of_files]
    exact congrArg (Option.or · _) Option.or_none
  obtain ⟨settings, read, values⟩ := of_setting_sectioned sectioned''
    fun field => chosen field ▸ takes_chosen proper field
  refine ⟨settings, ?_, fun field => (chosen field).symm.trans (values field)⟩
  rw [load, run]
  simp only [bind, Except.bind, Layers.build, Layers.merged, added]
  exact read

theorem load_congr {moved : List Step} (proper : ∀ step ∈ steps, step.IsProper)
    (proper' : ∀ step ∈ moved, step.IsProper)
    (same : ∀ field, chosen? moved field = chosen? steps field) : load moved = load steps := by
  obtain ⟨settings, loaded, values⟩ := load_ok proper
  obtain ⟨settings', loaded', values'⟩ := load_ok proper'
  have equal : settings' = settings := value_injective fun field => Option.some.inj
    ((values' field).symm.trans ((same field).trans (values field)))
  rw [loaded, loaded', equal]

/-- The same steps in another order, except that overrides of one field, and files that set one
field, stay in theirs. -/
structure Rearranged (steps moved : List Step) : Prop where
  perm : moved.Perm steps
  overrides : ∀ field, moved.filterMap (Step.overrideValue? field) =
    steps.filterMap (Step.overrideValue? field)
  files : ∀ field, moved.filterMap (Step.fileValue? field) =
    steps.filterMap (Step.fileValue? field)

section Moves

variable {before passed after moved : List Step}

theorem filter_map_past {value? : Step → Option Setting}
    (apart : ∀ other ∈ passed, value? step = none ∨ value? other = none) :
    (before ++ (passed ++ step :: after)).filterMap value? =
      (before ++ step :: (passed ++ after)).filterMap value? := by
  simp only [List.filterMap_append, List.filterMap_cons]
  cases here : value? step with
  | none => rfl
  | some value =>
      have others : passed.filterMap value? = [] := List.filterMap_eq_nil_iff.2
        fun other member => (apart other member).resolve_left (here ▸ nofun)
      rw [others]
      rfl

theorem Rearranged.past (apart : ∀ other ∈ passed, step.Apart other) :
    Rearranged (before ++ step :: (passed ++ after)) (before ++ (passed ++ step :: after)) where
  perm := List.perm_middle.append_left before
  overrides field := filter_map_past fun other member => (apart other member field).2
  files field := filter_map_past fun other member => (apart other member field).1

theorem Step.override_apart_file (name : String) (value : Setting) (file : File) :
    (override name value).Apart (.file file) := fun _ => ⟨.inl rfl, .inr rfl⟩

theorem load_rearranged (rearranged : Rearranged steps moved)
    (proper : ∀ step ∈ steps, step.IsProper) : load moved = load steps := by
  refine load_congr proper (fun step member => proper step (rearranged.perm.mem_iff.1 member))
    fun field => ?_
  rw [chosen?, lastSome?, lastSome?, rearranged.overrides, rearranged.files]
  rfl

theorem chosen_insert_file {file : File} {field : Field} (without : file.value? field = none) :
    chosen? (before ++ .file file :: after) field = chosen? (before ++ after) field := by
  have overridden : Step.overrideValue? field (.file file) = none := rfl
  have filed : Step.fileValue? field (.file file) = none := without
  simp only [chosen?, lastSome?, List.filterMap_append, List.filterMap_cons, overridden, filed]

end Moves

/-- What entries say that set one field. Entries are not compared by evaluation, but this is. -/
def soleField? : List (String × Setting) → Option (String × String × (String ⊕ Bool))
  | [(home, .table [(name, .text value)])] => some (home, name, .inl value)
  | [(home, .table [(name, .flag value)])] => some (home, name, .inr value)
  | _ => none

theorem read_of_sole_field {source home name : String} {value : String ⊕ Bool}
    (sole : (Toml.read source).bind soleField? = some (home, name, value)) :
    Toml.read source = some [(home, .table [(name, value.elim .text .flag)])] := by
  obtain ⟨entries, read, sole⟩ := Option.bind_eq_some_iff.1 sole
  rw [read]
  unfold soleField? at sole
  split at sole
  case h_1 =>
    cases sole
    rfl
  case h_2 =>
    cases sole
    rfl
  case h_3 => cases sole

/-- In whatever order files are added and keys are overridden, a field has its last override, or
else what the last file gives it that sets it, or else its default. -/
theorem load_chooses (steps : List Step) (proper : ∀ step ∈ steps, step.IsProper) :
    (∃ settings, load steps = .ok settings ∧
      ∀ field, chosen? steps field = some (settings.value field)) ∧
    (∀ moved, Rearranged steps moved → load moved = load steps) ∧
    (∀ (before : List Step) (passed : List File) (after : List Step) (name : String)
        (value : Setting), steps = before ++ .override name value :: (passed.map .file ++ after) →
      load (before ++ (passed.map .file ++ .override name value :: after)) = load steps) ∧
    (∀ before first second after, steps = before ++ first :: second :: after →
      first.Apart second → load (before ++ second :: first :: after) = load steps) ∧
    ∀ before after file, steps = before ++ after → file.IsProper → ∃ old new,
      load steps = .ok old ∧ load (before ++ .file file :: after) = .ok new ∧
      ∀ field, file.value? field = none → new.value field = old.value field := by
  have loaded := load_ok proper
  refine ⟨loaded, fun moved rearranged => load_rearranged rearranged proper, ?_, ?_, ?_⟩
  · rintro before passed after name value rfl
    refine load_rearranged (Rearranged.past fun other member => ?_) proper
    obtain ⟨file, -, rfl⟩ := List.mem_map.1 member
    exact Step.override_apart_file name value file
  · rintro before first second after rfl apart
    have rearranged : Rearranged (before ++ first :: ([second] ++ after))
        (before ++ ([second] ++ first :: after)) :=
      .past fun other member => List.mem_singleton.1 member ▸ apart
    exact load_rearranged rearranged proper
  · rintro before after file rfl proper'
    obtain ⟨old, loaded, values⟩ := loaded
    have proper'' : ∀ step ∈ before ++ .file file :: after, step.IsProper := by
      intro step member
      rcases List.mem_cons.1 (List.perm_middle.mem_iff.1 member) with rfl | other
      · exact proper'
      · exact proper step other
    obtain ⟨new, loaded', values'⟩ := load_ok proper''
    refine ⟨old, new, loaded, loaded', fun field without => ?_⟩
    have chosen := values' field
    rw [chosen_insert_file without, values] at chosen
    exact (Option.some.inj chosen).symm

/-- An override before all files, a file that is not there, and two files with one field each. -/
theorem load_chooses_format_and_pretty :
    let steps : List Step := [.override "output.format" (.text "ast-yaml"),
      .file ⟨some "[output]\nformat = \"token-simple\"\n", true⟩, .file ⟨none, false⟩,
      .file ⟨some "output.pretty_json = false", false⟩]
    (∀ step ∈ steps, step.IsProper) ∧ load steps = .ok ⟨"ast-yaml", false, "  "⟩ := by
  intro steps
  have first : Toml.read "[output]\nformat = \"token-simple\"\n" =
      some [("output", .table [("format", .text "token-simple")])] :=
    read_of_sole_field (show _ = some ("output", "format", .inl "token-simple") by decide +kernel)
  have last : Toml.read "output.pretty_json = false" =
      some [("output", .table [("pretty_json", .flag false)])] :=
    read_of_sole_field (show _ = some ("output", "pretty_json", .inr false) by decide +kernel)
  have named : Key.ofText? "output.format" = some (Field.key .format) := by decide +kernel
  have proper : ∀ step ∈ steps, step.IsProper := by
    simp only [steps, List.forall_mem_cons]
    refine ⟨⟨.format, named, _, rfl⟩, ⟨_, first, ?_⟩, rfl, ⟨_, last, ?_⟩,
      List.forall_mem_nil _⟩
    · exact List.forall_mem_singleton.2 ⟨⟨.format, rfl⟩, _, rfl,
        List.forall_mem_singleton.2 ⟨.format, rfl, rfl, _, rfl⟩⟩
    · exact List.forall_mem_singleton.2 ⟨⟨.spreadJson, rfl⟩, _, rfl,
        List.forall_mem_singleton.2 ⟨.spreadJson, rfl, rfl, _, rfl⟩⟩
  have chosen : ∀ field, chosen? steps field = some (value ⟨"ast-yaml", false, "  "⟩ field) := by
    intro field
    simp only [steps, chosen?, lastSome?, List.filterMap_cons, Step.overrideValue?, Step.fileValue?,
      Step.file?, File.value?, named, first, last, Option.bind_eq_bind, Option.bind_some,
      Option.bind_none]
    cases field <;> rfl
  refine ⟨proper, ?_⟩
  obtain ⟨settings, loaded, values⟩ := (load_chooses steps proper).1
  have same := value_injective fun field =>
    Option.some.inj ((values field).symm.trans (chosen field))
  rw [loaded, same]

end Steps

end KernelMenu.Settings

import KernelMenu.CommandLine
import KernelMenu.Proofs.LayerOrder

/-!
How a request reaches the settings. The format that it asks for goes over its settings file, and the
file over the built-in settings.
-/

namespace KernelMenu.CommandLine.Request

open Settings

/-- The settings file that a request names, as a layer. -/
def layer? (request : Request) (files : Files) : Option Settings.File :=
  request.config.map fun path => ⟨(settingsFile? files path).map Text.lossy, true⟩

/-- The calls of the loader that a request comes to. -/
def steps (request : Request) (files : Files) : List Step :=
  (request.layer? files).toList.map .file ++
    request.format.toList.map fun format => .override "output.format" (.text format)

theorem key_of_format : Key.ofText? "output.format" = some formatKey := by
  decide +kernel

variable {request : Request} {files : Files}

theorem steps_add (request : Request) (files : Files) :
    (request.steps files).foldlM Layers.add .none = .ok (request.layers files) := by
  have named : ∀ (layers : Layers) (format : String),
      layers.add (.override "output.format" (.text format)) =
        .ok (layers.withOverride formatKey (.text format)) := by
    intro layers format
    rw [Layers.add, Layers.withNamedOverride, key_of_format]
  rw [steps, List.foldlM_append, layers, layer?]
  cases request.config with
  | none =>
      cases request.format with
      | none => rfl
      | some format => exact congrArg (· >>= pure) (named .none format)
  | some path =>
      cases request.format with
      | none => rfl
      | some format => exact congrArg (· >>= pure) (named _ format)

theorem build_eq_load (request : Request) (files : Files) :
    (request.layers files).build = load (request.steps files) := by
  rw [load, steps_add]
  rfl

theorem build_without_file {path : String} (named : request.config = some path)
    (missing : settingsFile? files path = none) :
    (request.layers files).build = .error .missingFile := by
  rw [layers, named]
  dsimp only
  rw [missing]
  cases request.format <;> rfl

theorem override_of_format (field : Field) (format : String) :
    (Step.override "output.format" (.text format)).overrideValue? field =
      if field = .format then some (.text format) else none := by
  have key : formatKey = Field.key .format := rfl
  rw [Step.overrideValue?, key_of_format, key]
  by_cases same : field = .format
  · rw [if_pos same, same, if_pos rfl]
  · rw [if_neg same, if_neg fun other => same (Field.key_injective (Option.some.inj other)).symm]

theorem last_some_append {Item Value : Type} (value? : Item → Option Value)
    (front back : List Item) :
    lastSome? value? (front ++ back) = (lastSome? value? back).or (lastSome? value? front) := by
  rw [lastSome?, List.filterMap_append, List.getLast?_append]
  rfl

theorem last_some_option {Item Step Value : Type} (value? : Step → Option Value)
    (step : Item → Step) (item? : Option Item) :
    lastSome? value? (item?.toList.map step) = item?.bind fun item => value? (step item) := by
  cases item? with
  | none => rfl
  | some item =>
      rw [Option.toList_some, List.map_singleton, last_some_cons]
      exact Option.none_or

theorem chosen_from (field : Field) (file : Option Settings.File) (format : Option String) :
    chosen? (file.toList.map .file ++
        format.toList.map fun format => .override "output.format" (.text format)) field =
      (if field = .format then format.map Setting.text else none).or
        ((file.bind (File.value? field)).or (given? field defaults)) := by
  simp only [chosen?, last_some_append, last_some_option, override_of_format]
  have unset : (file.bind fun file => Step.overrideValue? field (.file file)) = none := by
    cases file <;> rfl
  have plain : (format.bind fun format =>
      Step.fileValue? field (.override "output.format" (.text format))) = none := by
    cases format <;> rfl
  have asked : (format.bind fun format =>
      if field = .format then some (Setting.text format) else none) =
        if field = .format then format.map Setting.text else none := by
    cases format <;> simp
  rw [unset, plain, asked, Option.or_none, Option.none_or]
  rfl

/-- Each field has the value that the request gives it, or else the settings file, or else the
built-in one. -/
theorem settings_chosen (proper : ∀ file, request.layer? files = some file → file.IsProper) :
    ∃ settings, (request.layers files).build = .ok settings ∧
      ∀ field, some (settings.value field) =
        (if field = .format then request.format.map Setting.text else none).or
          (((request.layer? files).bind (File.value? field)).or (given? field defaults)) := by
  have proper' : ∀ step ∈ request.steps files, step.IsProper := by
    intro step member
    rcases List.mem_append.1 member with filed | overridden
    · obtain ⟨file, named, rfl⟩ := List.mem_map.1 filed
      exact proper file (Option.mem_toList.1 named)
    · obtain ⟨format, -, rfl⟩ := List.mem_map.1 overridden
      exact ⟨.format, key_of_format, format, rfl⟩
  obtain ⟨settings, loaded, values⟩ := load_ok proper'
  refine ⟨settings, (build_eq_load request files).trans loaded, fun field => ?_⟩
  rw [← values, steps, chosen_from]

end KernelMenu.CommandLine.Request

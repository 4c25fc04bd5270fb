import KernelMenu.Proofs.JsonReading
import KernelMenu.View

/-!
Trees are read back from their JSON texts, in whatever layout.
-/

namespace KernelMenu

namespace Datum

def text? : Datum → Option String
  | .text value => some value
  | _ => none

def flag? : Datum → Option Bool
  | .flag value => some value
  | _ => none

def field? (name : String) : Datum → Option Datum
  | .record fields => fields.lookup name
  | _ => none

def each? {Item : Type} (read : Datum → Option Item) : Datum → Option (List Item)
  | .list items => items.mapM read
  | _ => none

def optional? {Item : Type} (read : Datum → Option Item) : Datum → Option (Option Item)
  | .null => some none
  | datum => (read datum).map some

end Datum

open Datum

def ValueType.ofText? (text : String) : Option ValueType := all.find? fun type => type.text == text

def Expr.ofKind? (kind : String) : Option Expr :=
  [yes, mod, no].find? fun expr => expr.kind == kind

def Expr.ofValue? (kind payload : String) : Option Expr :=
  [id payload, literal payload, int payload, hex payload].find? fun expr => expr.kind == kind

def Expr.ofOperands? (kind : String) (left right : Expr) : Option Expr :=
  [and left right, or left right, eq left right, ne left right].find? fun expr => expr.kind == kind

def Expr.ofDatum? : Datum → Option Expr
  | .record [("kind", .text kind)] => ofKind? kind
  | .record [("kind", .text kind), ("value", .text payload)] => ofValue? kind payload
  | .record [("kind", .text kind), ("value", .record operand)] =>
      if kind = "Not" then (ofDatum? (.record operand)).map .not else none
  | .record [("kind", .text kind), ("value", .list [left, right])] => do
      ofOperands? kind (← ofDatum? left) (← ofDatum? right)
  | _ => none

def Datum.guardedText? (name : String) (datum : Datum) : Option (Guarded String) := do
  some ⟨← (← datum.field? name).text?, ← Expr.ofDatum? (← datum.field? "condition")⟩

def Datum.default? (datum : Datum) : Option (Guarded Expr) := do
  some ⟨← Expr.ofDatum? (← datum.field? "value"), ← Expr.ofDatum? (← datum.field? "condition")⟩

def Datum.range? (datum : Datum) : Option (Guarded Bounds) := do
  some ⟨⟨← Expr.ofDatum? (← datum.field? "low"), ← Expr.ofDatum? (← datum.field? "high")⟩,
    ← Expr.ofDatum? (← datum.field? "condition")⟩

def Datum.dependency? (datum : Datum) : Option Expr := do
  Expr.ofDatum? (← datum.field? "condition")

def Config.ofDatum? (datum : Datum) : Option Config := do
  some {
    name := ← (← datum.field? "id").text?
    isMenu := ← (← datum.field? "is_menu_config").flag?
    type := ← ValueType.ofText? (← (← datum.field? "ty").text?)
    inherited := ← Expr.ofDatum? (← datum.field? "inherited")
    prompt := ← (← datum.field? "prompt").optional? (guardedText? "text")
    defaults := ← (← datum.field? "defaults").each? default?
    selects := ← (← datum.field? "selects").each? (guardedText? "target")
    ranges := ← (← datum.field? "ranges").each? range?
    dependsOn := ← (← datum.field? "depends_on").each? dependency?
    env := ← (← datum.field? "env").each? (guardedText? "name") }

def Choice.ofDatum? (datum : Datum) : Option Choice := do
  some {
    prompt := ← guardedText? "text" (← datum.field? "prompt")
    isBoolean := ← (← datum.field? "is_boolean").flag?
    isMandatory := ← (← datum.field? "is_mandatory").flag?
    defaults := ← (← datum.field? "defaults").each? default?
    dependsOn := ← (← datum.field? "depends_on").each? dependency? }

namespace Symbol

mutual

def ofDatum? : Datum → Option Symbol
  | .record fields => do
      let kind ← (← fields.lookup "symbol").text?
      if kind = "Config" then
        some (.entry (← Config.ofDatum? (.record fields)) (← childrenIn? fields))
      else if kind = "Menu" then
        some (.menu (← guardedText? "text" (← fields.lookup "prompt")) (← childrenIn? fields))
      else if kind = "Choice" then
        some (.choice (← Choice.ofDatum? (.record fields)) (← optionsIn? fields))
      else none
  | _ => none

def childrenIn? : List (String × Datum) → Option (List Symbol)
  | [] => none
  | (name, value) :: fields =>
      if name = "children" then
        match value with
        | .list items => ofData? items
        | _ => none
      else childrenIn? fields

def ofData? : List Datum → Option (List Symbol)
  | [] => some []
  | item :: items => do some ((← ofDatum? item) :: (← ofData? items))

def optionsIn? : List (String × Datum) → Option (List (Config × List Symbol))
  | [] => none
  | (name, value) :: fields =>
      if name = "options" then
        match value with
        | .list items => optionsOfData? items
        | _ => none
      else optionsIn? fields

/-- The options of a choice, which have no kind. -/
def optionsOfData? : List Datum → Option (List (Config × List Symbol))
  | [] => some []
  | .record fields :: items => do
      some ((← Config.ofDatum? (.record fields), ← childrenIn? fields) :: (← optionsOfData? items))
  | _ => none

end

end Symbol

def Root.ofDatum? : Datum → Option Root
  | .record fields => do
      some ⟨← guardedText? "text" (← fields.lookup "prompt"), ← Symbol.childrenIn? fields⟩
  | _ => none

section Clauses

theorem ValueType.of_text (type : ValueType) : ofText? type.text = some type := by
  cases type <;> rfl

theorem Expr.exists_fields (expr : Expr) : ∃ fields, expr.datum = .record fields := by
  cases expr <;> exact ⟨_, rfl⟩

theorem Expr.of_datum (expr : Expr) : ofDatum? expr.datum = some expr := by
  induction expr with
  | yes | mod | no => rfl
  | id | literal | int | hex => rfl
  | not operand induction =>
      obtain ⟨fields, same⟩ := operand.exists_fields
      rw [same] at induction
      rw [datum, same, ofDatum?, induction]
      rfl
  | and left right induction induction' | or left right induction induction'
  | eq left right induction induction' | ne left right induction induction' =>
      rw [datum, ofDatum?, induction, induction']
      rfl

theorem Datum.guarded_of_text {name : String} (other : name ≠ "condition") (text : Guarded String) :
    guardedText? name (ofText name text) = some text := by
  have second : ("condition" == name) = false := beq_eq_false_iff_ne.2 other.symm
  simp [guardedText?, ofText, field?, List.lookup_cons, second, text?, Expr.of_datum]

theorem Datum.default_of_default (value : Guarded Expr) :
    default? (ofDefault value) = some value := by
  simp [default?, ofDefault, field?, List.lookup_cons, Expr.of_datum]

theorem Datum.range_of_range (bounds : Guarded Bounds) : range? (ofRange bounds) = some bounds := by
  simp [range?, ofRange, field?, List.lookup_cons, Expr.of_datum]

theorem Datum.dependency_of_dependency (condition : Expr) :
    dependency? (ofDependency condition) = some condition := by
  simp [dependency?, ofDependency, field?, Expr.of_datum]

theorem Datum.each_of_list {Item : Type} {read : Datum → Option Item} {write : Item → Datum}
    (same : ∀ item, read (write item) = some item) (items : List Item) :
    each? read (.list (items.map write)) = some items := by
  rw [each?]
  induction items with
  | nil => rfl
  | cons item items induction => simp [same, induction]

theorem Datum.optional_of_prompt (prompt : Option (Guarded String)) :
    optional? (guardedText? "text") ((prompt.map ofPrompt).getD .null) = some prompt := by
  cases prompt with
  | none => rfl
  | some prompt =>
      have found : guardedText? "text" (ofPrompt prompt) = some prompt :=
        guarded_of_text (by decide) prompt
      rw [Option.map_some, Option.getD_some]
      exact congrArg (Option.map some) found

end Clauses

section Heads

theorem Datum.each_of_texts {name : String} (other : name ≠ "condition")
    (texts : List (Guarded String)) :
    each? (guardedText? name) (.list (texts.map (ofText name))) = some texts :=
  each_of_list (guarded_of_text other) texts

/-- An entry is read from its fields, with its kind in front of them or not. -/
theorem Config.of_datum (config : Config) (children : List Datum) {front : List (String × Datum)}
    (tag : front = [] ∨ front = [("symbol", .text "Config")]) :
    ofDatum? (.record (front ++ config.fields children)) = some config := by
  have selects := each_of_texts (by decide : "target" ≠ "condition") config.selects
  have names := each_of_texts (by decide : "name" ≠ "condition") config.env
  have defaults := each_of_list default_of_default config.defaults
  have ranges := each_of_list range_of_range config.ranges
  have dependencies := each_of_list dependency_of_dependency config.dependsOn
  -- The name of no field is that of the tag, so look-ups do not see it.
  rcases tag with rfl | rfl <;>
  simp [ofDatum?, field?, fields, List.lookup_cons, text?, flag?, ValueType.of_text, Expr.of_datum,
    optional_of_prompt, selects, names, defaults, ranges, dependencies]

theorem Choice.of_datum (choice : Choice) (options : List Datum) :
    ofDatum? (.record (("symbol", .text "Choice") :: choice.fields options)) = some choice := by
  have prompt : guardedText? "text" (ofPrompt choice.prompt) = some choice.prompt :=
    guarded_of_text (by decide) choice.prompt
  have defaults := each_of_list default_of_default choice.defaults
  have dependencies := each_of_list dependency_of_dependency choice.dependsOn
  simp [ofDatum?, field?, fields, List.lookup_cons, flag?, prompt, defaults, dependencies]

end Heads

section Trees

namespace Symbol

theorem children_in_config (config : Config) (children : List Datum) {front : List (String × Datum)}
    (tag : front = [] ∨ front = [("symbol", .text "Config")]) :
    childrenIn? (front ++ config.fields children) = ofData? children := by
  rcases tag with rfl | rfl <;> simp [Config.fields, childrenIn?]

theorem options_in_choice (choice : Choice) (options : List Datum) :
    optionsIn? (("symbol", .text "Choice") :: choice.fields options) = optionsOfData? options := by
  simp [Choice.fields, optionsIn?]

theorem of_data {children : List Symbol}
    (each : ∀ child ∈ children, ofDatum? child.datum = some child) :
    ofData? (children.map datum) = some children := by
  induction children with
  | nil => rfl
  | cons child children induction =>
      obtain ⟨first, rest⟩ := List.forall_mem_cons.1 each
      rw [List.map_cons, ofData?, first, induction rest]
      rfl

theorem options_of_data {options : List (Config × List Symbol)}
    (each : ∀ option ∈ options, ∀ child ∈ option.2, ofDatum? child.datum = some child) :
    optionsOfData? (options.map fun option =>
      .record (option.1.fields (option.2.map datum))) = some options := by
  induction options with
  | nil => rfl
  | cons option options induction =>
      obtain ⟨first, rest⟩ := List.forall_mem_cons.1 each
      have head := option.1.of_datum (option.2.map datum) (.inl rfl)
      have inside := children_in_config option.1 (option.2.map datum) (.inl rfl)
      rw [List.nil_append] at head inside
      rw [List.map_cons, optionsOfData?, head, inside, of_data first, induction rest]
      rfl

theorem of_datum (symbol : Symbol) : ofDatum? symbol.datum = some symbol := by
  induction symbol using Outline.induct with
  | atEntry config children induction =>
      have whole : datum (.entry config children) =
          .record ([("symbol", .text "Config")] ++ config.fields (children.map datum)) :=
        Outline.fold_entry _ config children
      have kind : ([("symbol", Datum.text "Config")] ++
          config.fields (children.map datum)).lookup "symbol" = some (.text "Config") := rfl
      simp only [whole, ofDatum?, kind, Option.bind_eq_bind, Option.bind_some, text?, if_pos,
        config.of_datum _ (.inr rfl), children_in_config config _ (.inr rfl), of_data induction]
  | atMenu title children induction =>
      have whole : datum (.menu title children) = .record [("symbol", .text "Menu"),
          ("prompt", ofPrompt title), ("children", .list (children.map datum))] :=
        Outline.fold_menu _ title children
      have found : guardedText? "text" (ofPrompt title) = some title :=
        guarded_of_text (by decide) title
      simp [whole, ofDatum?, List.lookup_cons, text?, found, childrenIn?, of_data induction]
  | atChoice choice options induction =>
      have whole : datum (.choice choice options) = .record (("symbol", .text "Choice") ::
          choice.fields (options.map fun option =>
            .record (option.1.fields (option.2.map datum)))) := by
        rw [datum, Outline.fold_choice]
        dsimp only
        rw [List.map_map]
        rfl
      simp [whole, ofDatum?, List.lookup_cons, text?, choice.of_datum, options_in_choice,
        options_of_data induction]

end Symbol

theorem Root.of_datum (root : Root) : ofDatum? root.datum = some root := by
  have found : guardedText? "text" (ofPrompt root.prompt) = some root.prompt :=
    guarded_of_text (by decide) root.prompt
  have children := Symbol.of_data fun child (_ : child ∈ root.children) => child.of_datum
  simp [datum, ofDatum?, found, Symbol.childrenIn?, children]

end Trees

/-- The tree that a JSON text stands for. -/
def Root.ofJson? (text : String) : Option Root := (Datum.ofJson? text).bind ofDatum?

theorem RenderOptions.blank_json_layout (options : RenderOptions) : options.jsonLayout.IsBlank := by
  rw [jsonLayout]
  split
  · exact Json.Layout.blank_spread
  · exact Json.Layout.blank_dense

theorem Root.of_json_of_has_json {root : Root} {text : String}
    (written : root.datum.HasJson text) : ofJson? text = some root := by
  rw [ofJson?, Datum.of_json_of_has_json written, Option.bind_some, of_datum]

/-- With line breaks or without, the output is JSON for the datum of the tree. From any JSON for
that datum the tree can be read, so no two trees have an output in common. -/
theorem Root.render_json_lossless :
    (∀ (root : Root) (options : RenderOptions), ∃ text,
      root.render .json options = .ok text ∧ root.datum.HasJson text) ∧
    (∀ (root : Root) (text : String), root.datum.HasJson text → Root.ofJson? text = some root) ∧
    ∀ (root other : Root) (options options' : RenderOptions),
      root.render .json options = other.render .json options' → root = other := by
  have renders : ∀ (root : Root) (options : RenderOptions), ∃ text,
      root.render .json options = .ok text ∧ root.datum.HasJson text := fun root options =>
    ⟨_, rfl, Json.has_json_to_json options.blank_json_layout root.datum⟩
  refine ⟨renders, fun root text => of_json_of_has_json, fun root other options options' same => ?_⟩
  obtain ⟨text, rendered, written⟩ := renders root options
  obtain ⟨text', rendered', written'⟩ := renders other options'
  have texts : text = text' := Except.ok.inj (rendered.symm.trans (same.trans rendered'))
  subst texts
  have read := of_json_of_has_json written
  rw [of_json_of_has_json written'] at read
  exact (Option.some.inj read).symm

end KernelMenu

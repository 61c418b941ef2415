import CiTranslate.InputValue
import CiTranslate.Proofs.Json.RoundTrip

/-!
Parameters and steps after they were written to a document and read from it.

A value that restores a list or a record becomes the compact text of the document that it
is; all others stay. Doing it a second time changes nothing (`renderedInput_renderedInput`),
since a compact text stands for one document only. Everything is stated for any way of
writing doubles.
-/

namespace CiTranslate

variable (floatText : Float → String)

/-! ### Values -/

/-- The text of a parameter after it was written and read. -/
def renderedInput (raw : String) : String :=
  (Node.ofData floatText (inputValue raw)).inputText

theorem startsNested_iff {text : String} :
    startsNested text = true ↔ ∃ c rest, text.toList = c :: rest ∧ (c = '[' ∨ c = '\x7b') := by
  unfold startsNested
  split
  · next rest shape => exact ⟨fun _ => ⟨_, rest, shape, .inl rfl⟩, fun _ => rfl⟩
  · next rest shape => exact ⟨fun _ => ⟨_, rest, shape, .inr rfl⟩, fun _ => rfl⟩
  · next noList noRecord =>
    refine ⟨fun h => (nomatch h), ?_⟩
    rintro ⟨c, rest, shape, rfl | rfl⟩
    · exact absurd shape (noList rest)
    · exact absurd shape (noRecord rest)

/-- A value is a text, or a list or record that was read from its own compact text. -/
theorem inputValue_cases (raw : String) :
    inputValue raw = .text raw ∨
      Json.read raw = .ok (inputValue raw) ∧
        ((∃ items, inputValue raw = .list items) ∨ ∃ fields, inputValue raw = .record fields) := by
  unfold inputValue
  split
  · next nested =>
    obtain ⟨c, rest, shape, bracket⟩ := startsNested_iff.mp nested
    cases result : Json.read raw with
    | error error => exact .inl rfl
    | ok data =>
      by_cases same : Json.write data = raw
      · simp only [if_pos same]
        exact .inr ⟨trivial, Json.list_or_record_of_read shape bracket result⟩
      · simp only [if_neg same]
        exact .inl trivial
  · exact .inl rfl

theorem renderedInput_of_text {raw : String} (text : inputValue raw = .text raw) :
    renderedInput floatText raw = raw := by
  rw [renderedInput, text]
  rfl

/-- The compact text of a list or a record is kept: it restores that document or nothing. -/
theorem renderedInput_inputText {node : Node} (distinct : node.KeysDistinct)
    (nested : node.inputText = Json.write node.toData) :
    renderedInput floatText node.inputText = node.inputText := by
  rcases inputValue_cases node.inputText with text | ⟨result, -⟩
  · exact renderedInput_of_text floatText text
  · have own := Json.read_write_toData distinct
    rw [← nested, result] at own
    split at own
    · rw [renderedInput, Option.some.inj own, Node.ofData_toData distinct]
    · cases own

/-- Writing and reading a parameter again changes nothing. -/
theorem renderedInput_renderedInput (raw : String) :
    renderedInput floatText (renderedInput floatText raw) = renderedInput floatText raw := by
  have distinct : (Node.ofData floatText (inputValue raw)).KeysDistinct :=
    Node.keysDistinct_ofData (inputValue raw)
  rcases inputValue_cases raw with text | ⟨-, ⟨items, list⟩ | ⟨fields, record⟩⟩
  · rw [renderedInput_of_text floatText text, renderedInput_of_text floatText text]
  · exact renderedInput_inputText floatText distinct (by rw [list]; rfl)
  · exact renderedInput_inputText floatText distinct (by rw [record]; rfl)

/-! ### Parameters -/

namespace Inputs

theorem eq_of_fields_eq {inputs others : Inputs} (same : inputs.fields = others.fields) :
    inputs = others := by
  cases inputs
  cases others
  cases same
  rfl

/-- The parameters after they were written and read. -/
def rendered (inputs : Inputs) : Inputs where
  fields := Fields.mapValues (renderedInput floatText) inputs.fields
  distinct := by
    rw [Fields.names_mapValues]
    exact inputs.distinct

@[simp] theorem get?_rendered (key : String) (inputs : Inputs) :
    (inputs.rendered floatText).get? key = (inputs.get? key).map (renderedInput floatText) :=
  Fields.get?_mapValues _ key inputs.fields

@[simp] theorem rendered_rendered (inputs : Inputs) :
    (inputs.rendered floatText).rendered floatText = inputs.rendered floatText := by
  have again : renderedInput floatText ∘ renderedInput floatText = renderedInput floatText :=
    funext (renderedInput_renderedInput floatText)
  apply eq_of_fields_eq
  simp only [rendered, Fields.mapValues_mapValues, again]

/-- A parameter that is taken out is not there any more. -/
@[simp] theorem get?_erase_self (key : String) (inputs : Inputs) :
    (inputs.erase key).get? key = none :=
  Fields.get?_erase_self inputs.distinct

theorem get?_erase_of_ne {key other : String} (differ : other ≠ key) (inputs : Inputs) :
    (inputs.erase key).get? other = inputs.get? other :=
  Fields.get?_erase_of_ne differ inputs.fields

theorem erase_eq_self {key : String} {inputs : Inputs} (absent : inputs.get? key = none) :
    inputs.erase key = inputs :=
  eq_of_fields_eq (Fields.erase_eq_self absent)

theorem rendered_erase (key : String) (inputs : Inputs) :
    (inputs.erase key).rendered floatText = (inputs.rendered floatText).erase key :=
  eq_of_fields_eq (Fields.erase_mapValues _ key inputs.fields).symm

/-- The parameters of a document are the texts of what was written into it. -/
theorem fields_ofNode_record {fields : List (String × Data)}
    (distinct : (fields.map Prod.fst).Nodup) :
    (Inputs.ofNode (Node.ofData floatText (.record fields))).fields =
      Fields.mapValues (fun data => (Node.ofData floatText data).inputText) fields := by
  have texts : (Node.ofData floatText (.record fields)).inputTexts =
      Fields.mapValues (fun data => (Node.ofData floatText data).inputText) fields := by
    rw [Node.ofData_record distinct, Node.inputTexts, Node.entries?, Option.getD_some,
      ← Fields.mapValues, Fields.mapValues_mapValues]
    rfl
  have ofList : (Inputs.ofNode (Node.ofData floatText (.record fields))).fields =
      Fields.ofList (Node.ofData floatText (.record fields)).inputTexts := rfl
  rw [ofList, texts]
  exact Fields.ofList_eq_self (by rwa [Fields.names_mapValues])

/-- The parameters that a document holds are those that were written into it. -/
theorem ofNode_toData (inputs : Inputs) :
    Inputs.ofNode (Node.ofData floatText inputs.toData) = inputs.rendered floatText := by
  have distinct : (Fields.names (Fields.mapValues inputValue inputs.fields)).Nodup := by
    rw [Fields.names_mapValues]
    exact inputs.distinct
  apply eq_of_fields_eq
  rw [toData, fields_ofNode_record floatText distinct, Fields.mapValues_mapValues]
  rfl

/-- Parameters are left out where there are none, and read back as none. -/
theorem ofNodeAt_toData? {key : String} {node : Node} {inputs : Inputs}
    (found : node.get? key = inputs.toData?.map (Node.ofData floatText)) :
    Inputs.ofNodeAt key node = inputs.rendered floatText := by
  unfold toData? at found
  split at found
  · next empty =>
    have fields : inputs.fields = [] := List.isEmpty_iff.mp empty
    have rendered : (inputs.rendered floatText).fields = [] :=
      congrArg (Fields.mapValues (renderedInput floatText)) fields
    apply eq_of_fields_eq
    rw [rendered, Inputs.ofNodeAt, Node.inputTextsAt, found]
    rfl
  · rw [← ofNode_toData, Inputs.ofNodeAt, Node.inputTextsAt, found]
    rfl

end Inputs

/-! ### Steps -/

namespace Step

@[simp] theorem command?_namedScript (name command : String) :
    (namedScript name command).command? = some command := by
  simp [command?, namedScript, Inputs.get?, Inputs.put, Fields.put, Fields.get?]

/-- The step after it was written and read: a shell command keeps nothing but itself, and the
parameters of all other steps are rendered. -/
def rendered (step : Step) : Step :=
  match step.command? with
  | some command => { namedScript step.name command with condition := step.condition }
  | none => { step with inputs := step.inputs.rendered floatText }

variable {floatText}

theorem rendered_of_command {step : Step} {command : String}
    (script : step.command? = some command) :
    step.rendered floatText =
      { namedScript step.name command with condition := step.condition } := by
  simp only [rendered, script]

theorem rendered_of_none {step : Step} (other : step.command? = none) :
    step.rendered floatText = { step with inputs := step.inputs.rendered floatText } := by
  simp only [rendered, other]

@[simp] theorem name_rendered (step : Step) : (step.rendered floatText).name = step.name := by
  unfold rendered
  split <;> rfl

/-- A step runs the same command when it is read back, and still none if it ran none. -/
@[simp] theorem command?_rendered (step : Step) :
    (step.rendered floatText).command? = step.command? := by
  cases script : step.command? with
  | some command =>
    rw [rendered_of_command script]
    exact command?_namedScript step.name command
  | none =>
    rw [rendered_of_none script]
    unfold command? at script ⊢
    split at script
    · next task =>
      rw [if_pos task]
      simp only [Inputs.get?_rendered, script, Option.map_none]
    · next task => rw [if_neg task]

@[simp] theorem rendered_rendered (step : Step) :
    (step.rendered floatText).rendered floatText = step.rendered floatText := by
  cases script : step.command? with
  | some command =>
    rw [rendered_of_command (command?_rendered step ▸ script), rendered_of_command script]
    rfl
  | none =>
    rw [rendered_of_none (command?_rendered step ▸ script), rendered_of_none script]
    simp only [Inputs.rendered_rendered]

end Step

end CiTranslate

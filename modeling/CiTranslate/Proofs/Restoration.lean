import CiTranslate.Proofs.InputValue
import CiTranslate.Proofs.Json.Compare
import CiTranslate.Proofs.Json.Distinct

/-!
Parameters of which a list or a record is restored.

A document is written into a parameter as its compact text, and the same document is restored from
that text, unless it is nested too deeply (`ofData_inputValue_inputText_iff`). In the other
direction more is restored than was ever written: a compact text may hold numbers and truth values,
which a document does not have. It is these that lose their text (`inputText_inputValue_iff`).
-/

namespace CiTranslate

/-! ### Values that documents have -/

/-- A value without numbers and truth values. -/
inductive Data.Textual : Data → Prop where
  | null : Textual .null
  | text (value : String) : Textual (.text value)
  | list {items : List Data} : (∀ item ∈ items, Textual item) → Textual (.list items)
  | record {fields : List (String × Data)} : (∀ field ∈ fields, Textual field.2) →
      Textual (.record fields)

namespace Node

/-- Whether a part of a document is a list or a mapping. -/
def IsNested : Node → Prop
  | .sequence _ => True
  | .mapping _ => True
  | _ => False

instance (node : Node) : Decidable node.IsNested :=
  match node with
  | .null => .isFalse id
  | .scalar _ => .isFalse id
  | .sequence _ => .isTrue trivial
  | .mapping _ => .isTrue trivial

theorem IsNested.inputText_eq {node : Node} (nested : node.IsNested) :
    node.inputText = Json.write node.toData := by
  cases node with
  | null => exact nested.elim
  | scalar text => exact nested.elim
  | sequence items => rfl
  | mapping entries => rfl

theorem IsNested.toData_ne_text {node : Node} (nested : node.IsNested) (text : String) :
    node.toData ≠ .text text := by
  cases node with
  | null => exact nested.elim
  | scalar text => exact nested.elim
  | sequence items => exact Data.noConfusion
  | mapping entries => exact Data.noConfusion

theorem textual_toData {node : Node} (distinct : node.KeysDistinct) : node.toData.Textual := by
  induction distinct with
  | null => exact .null
  | scalar text => exact .text text
  | sequence _ ih =>
    rw [toData, itemsToData_eq_map]
    refine .list fun item mem => ?_
    obtain ⟨own, hown, rfl⟩ := List.mem_map.mp mem
    exact ih own hown
  | mapping _ _ ih =>
    rw [toData, entriesToData_eq_mapValues]
    refine .record fun field mem => ?_
    obtain ⟨own, hown, rfl⟩ := List.mem_map.mp mem
    exact ih own hown

/-- A value that a document can have is the data of the document that it becomes. -/
theorem toData_ofData {floatText : Float → String} {data : Data} (distinct : data.KeysDistinct)
    (textual : data.Textual) : (ofData floatText data).toData = data := by
  induction distinct with
  | null => rfl
  | bool value => cases textual
  | int value => cases textual
  | float value => cases textual
  | text value => rfl
  | @list items _ ih =>
    cases textual with
    | list all =>
      have same : items.map (toData ∘ ofData floatText) = items.map id :=
        List.map_congr_left fun item mem => ih item mem (all item mem)
      rw [ofData_list, toData, itemsToData_eq_map, List.map_map, same, List.map_id]
  | @record fields distinct _ ih =>
    cases textual with
    | record all =>
      have same : Fields.mapValues (toData ∘ ofData floatText) fields = fields.map id :=
        List.map_congr_left fun field mem => Prod.ext rfl (ih field mem (all field mem))
      rw [ofData_record distinct, toData, entriesToData_eq_mapValues, Fields.mapValues_mapValues,
        same, List.map_id]

end Node

variable (floatText : Float → String)

/-! ### Documents that are restored -/

/-- What is restored from the compact text of a document is its data, if that can be read. -/
theorem inputValue_inputText {node : Node} (distinct : node.KeysDistinct)
    (nested : node.IsNested) :
    inputValue node.inputText =
      if Json.height node ≤ Json.maxDepth then node.toData else .text node.inputText := by
  have own := Json.read_write_toData distinct
  rw [← nested.inputText_eq] at own
  have bracket : startsNested node.inputText = true := by
    rw [startsNested_iff, nested.inputText_eq, Json.write, String.toList_ofList]
    cases node with
    | null => exact nested.elim
    | scalar text => exact nested.elim
    | sequence items => exact ⟨_, _, rfl, .inl rfl⟩
    | mapping entries => exact ⟨_, _, rfl, .inr rfl⟩
  rw [inputValue, if_pos bracket]
  cases result : Json.read node.inputText with
  | error error =>
    rw [result] at own
    split at own
    · cases own
    · next deep => rw [if_neg deep]
  | ok data =>
    rw [result] at own
    split at own
    · next shallow =>
      have same : data = node.toData := Option.some.inj own
      dsimp only
      rw [if_pos shallow, if_pos (same ▸ nested.inputText_eq.symm), same]
    · cases own

/-- **Nested parameters are restored.** From the text of a list or a mapping the same document is
restored, with its keys in their order and its nulls, exactly when it has at most 127 levels. A text
of any kind that was written and read once does not change any more. -/
theorem ofData_inputValue_inputText_iff :
    (∀ node : Node, node.KeysDistinct → node.IsNested →
      (Node.ofData floatText (inputValue node.inputText) = node ↔ Json.height node ≤ 127)) ∧
    ∀ raw : String,
      (Node.ofData floatText (inputValue
        (Node.ofData floatText (inputValue raw)).inputText)).inputText =
          (Node.ofData floatText (inputValue raw)).inputText := by
  refine ⟨fun node distinct nested => ?_, renderedInput_renderedInput floatText⟩
  rw [inputValue_inputText distinct nested]
  change _ ↔ Json.height node ≤ Json.maxDepth
  by_cases shallow : Json.height node ≤ Json.maxDepth
  · rw [if_pos shallow]
    exact iff_of_true (Node.ofData_toData distinct) shallow
  · rw [if_neg shallow, Node.ofData_text]
    refine iff_of_false (fun same => ?_) shallow
    rw [← same] at nested
    exact nested

/-- A document with a repeated key on two levels, an escaped one, nulls, and empty parts. -/
def nestedInput : Node :=
  .mapping [("b\\\"", .sequence [.null, .scalar "\n", .mapping []]), ("a", .mapping [("a", .null)]),
    ("", .sequence [])]

theorem ofData_inputValue_inputText_iff_nestedInput :
    nestedInput.KeysDistinct ∧ nestedInput.IsNested ∧ Json.height nestedInput = 3 ∧
      Node.ofJson (inputValue nestedInput.inputText) = nestedInput := by
  have shape : nestedInput = Node.ofJson nestedInput.toData := rfl
  have distinct : nestedInput.KeysDistinct := by
    rw [shape]
    exact Node.keysDistinct_ofData _
  have height : Json.height nestedInput = 3 := rfl
  have shallow : Json.height nestedInput ≤ 127 := by
    rw [height]
    decide
  exact ⟨distinct, trivial, height,
    ((ofData_inputValue_inputText_iff Json.doubles.write).1 nestedInput distinct trivial).mpr shallow⟩

/-! ### Texts that are kept -/

/-- What is restored has the parameter as its compact text. -/
theorem write_inputValue {raw : String} (restored : inputValue raw ≠ .text raw) :
    Json.write (inputValue raw) = raw := by
  unfold inputValue at restored ⊢
  split at restored
  · next nested =>
    rw [if_pos nested]
    split at restored
    · next data _ =>
      split at restored
      · next same => rwa [if_pos same]
      · exact absurd rfl restored
    · exact absurd rfl restored
  · exact absurd rfl restored

theorem isNested_ofData_inputValue {raw : String} (restored : inputValue raw ≠ .text raw) :
    (Node.ofData floatText (inputValue raw)).IsNested := by
  obtain text | ⟨-, ⟨items, list⟩ | ⟨fields, record⟩⟩ := inputValue_cases raw
  · exact absurd text restored
  · rw [list]
    trivial
  · rw [record]
    trivial

theorem keysDistinct_inputValue (raw : String) : (inputValue raw).KeysDistinct := by
  obtain text | ⟨result, -⟩ := inputValue_cases raw
  · rw [text]
    exact .text raw
  · exact Json.keysDistinct_of_read result

/-- A document whose text is the one that it was restored from is what was restored. -/
theorem inputValue_eq_toData {raw : String} (restored : inputValue raw ≠ .text raw) {node : Node}
    (distinct : node.KeysDistinct) (nested : node.IsNested) (own : node.inputText = raw) :
    Json.height node ≤ Json.maxDepth ∧ inputValue raw = node.toData := by
  have value := inputValue_inputText distinct nested
  rw [own] at value
  by_cases shallow : Json.height node ≤ Json.maxDepth
  · rw [if_pos shallow] at value
    exact ⟨shallow, value⟩
  · rw [if_neg shallow] at value
    exact absurd value restored

/-- The text is kept where nothing is restored that a document cannot have. -/
theorem inputText_ofData_inputValue_iff (raw : String) :
    (Node.ofData floatText (inputValue raw)).inputText = raw ↔ (inputValue raw).Textual := by
  by_cases text : inputValue raw = .text raw
  · rw [text]
    exact iff_of_true rfl (.text raw)
  · have nested := isNested_ofData_inputValue floatText text
    have distinct : (Node.ofData floatText (inputValue raw)).KeysDistinct :=
      Node.keysDistinct_ofData _
    constructor
    · intro kept
      obtain ⟨-, same⟩ := inputValue_eq_toData text distinct nested kept
      rw [same]
      exact Node.textual_toData distinct
    · intro textual
      rw [nested.inputText_eq, Node.toData_ofData (keysDistinct_inputValue raw) textual,
        write_inputValue text]

/-- The texts of documents are those of which something is restored that a document can have. -/
theorem exists_inputText_eq_iff (raw : String) :
    (∃ node : Node, node.KeysDistinct ∧ node.IsNested ∧ Json.height node ≤ Json.maxDepth ∧
      raw = node.inputText) ↔ inputValue raw ≠ .text raw ∧ (inputValue raw).Textual := by
  constructor
  · rintro ⟨node, distinct, nested, shallow, rfl⟩
    rw [inputValue_inputText distinct nested, if_pos shallow]
    exact ⟨nested.toData_ne_text _, Node.textual_toData distinct⟩
  · rintro ⟨restored, textual⟩
    have nested := isNested_ofData_inputValue Json.doubles.write restored
    have distinct : (Node.ofJson (inputValue raw)).KeysDistinct := Node.keysDistinct_ofData _
    have kept := (inputText_ofData_inputValue_iff Json.doubles.write raw).mpr textual
    obtain ⟨shallow, -⟩ := inputValue_eq_toData restored distinct nested kept
    exact ⟨_, distinct, nested, shallow, kept.symm⟩

/-- **A parameter keeps its text exactly when no number and no truth value is restored from it.**
What is restored, if anything, is a list or a record of which the parameter is the compact text. It
is the text of a document exactly when the value is one that documents have. -/
theorem inputText_inputValue_iff (raw : String) :
    (inputValue raw = .text raw ∨ Json.write (inputValue raw) = raw ∧
      ((∃ items, inputValue raw = .list items) ∨ ∃ fields, inputValue raw = .record fields)) ∧
    ((Node.ofData floatText (inputValue raw)).inputText = raw ↔ (inputValue raw).Textual) ∧
    ((∃ node : Node, node.KeysDistinct ∧ node.IsNested ∧ Json.height node ≤ 127 ∧
      raw = node.inputText) ↔ inputValue raw ≠ .text raw ∧ (inputValue raw).Textual) := by
  refine ⟨?_, inputText_ofData_inputValue_iff floatText raw,
    exists_inputText_eq_iff raw⟩
  by_cases text : inputValue raw = .text raw
  · exact .inl text
  · obtain same | ⟨-, nested⟩ := inputValue_cases raw
    · exact absurd same text
    · exact .inr ⟨write_inputValue text, nested⟩

theorem inputValue_number : inputValue "[1]" = .list [.int 1] := by
  have result : Json.read "[1]" = .ok (.list [.int 1]) :=
    Json.read_eq_ok (Json.readChars_eq_ok (by decide))
  have same : Json.write (.list [.int 1]) = "[1]" := by decide
  rw [inputValue, if_pos (by decide), result]
  exact if_pos same

theorem not_textual_number : ¬(Data.list [.int 1]).Textual := by
  intro textual
  cases textual with
  | list all => cases all _ (List.mem_singleton_self _)

/-- A number in brackets is restored though no document has that text, and comes back as a text in
brackets. -/
theorem not_inputText_inputValue :
    (¬∀ raw : String, inputValue raw ≠ .text raw →
      ∃ node : Node, node.KeysDistinct ∧ node.IsNested ∧ raw = node.inputText) ∧
    ¬∀ raw : String, (Node.ofJson (inputValue raw)).inputText = raw := by
  constructor
  · intro own
    have restored : inputValue "[1]" ≠ .text "[1]" := by
      rw [inputValue_number]
      exact Data.noConfusion
    obtain ⟨node, distinct, nested, same⟩ := own "[1]" restored
    obtain ⟨-, value⟩ := inputValue_eq_toData restored distinct nested same.symm
    rw [inputValue_number] at value
    apply not_textual_number
    rw [value]
    exact Node.textual_toData distinct
  · intro kept
    apply not_textual_number
    rw [← inputValue_number]
    exact (inputText_ofData_inputValue_iff Json.doubles.write "[1]").mp (kept "[1]")

end CiTranslate

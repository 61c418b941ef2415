import CiTranslate.Emitter
import CiTranslate.Proofs.Payload.Body
import CiTranslate.Proofs.Payload.Texts
import CiTranslate.Proofs.Yaml.Clear
import CiTranslate.Proofs.Yaml.Document
import CiTranslate.Source

/-!
Payloads of written documents.

No written document looks like a fenced block unless a text of its pipeline or of the settings has a
fence. So its payload is the document itself: behind a mark, all of its lines that are not blank,
without blanks at their ends (`payload_written`).

Where no line of the document is blank or ends in a blank, the payload has the value of the document
(`decodeYaml_payload_iff`), and the pipeline that is parsed is the one that the document stands for.
A command with an empty line is written with that line, and loses it.
-/

namespace CiTranslate

open Payload (fence documentStart Unfenced)

/-! ### Lines -/

namespace Payload

/-- Of a text without a fence that starts with a visible character, all lines are left. -/
theorem contentLines_eq_tidyRows {text : List Char} (absent : ¬fence <:+: text)
    (visible : ∀ c ∈ text.head?, Text.isBlank c = false) :
    contentLines text = Text.tidyRows text := by
  have unfenced : ∀ line ∈ Text.tidyRows text, isFenceLine line = false := by
    intro line mem
    rw [isFenceLine, Bool.eq_false_iff, ne_eq, List.isPrefixOf_iff_prefix]
    intro starts
    have inside : Text.trimStart line <:+: line := (List.dropWhile_suffix _).isInfix
    exact absent ((starts.isInfix.trans inside).trans (Text.infix_of_mem_tidyRows mem))
  rw [contentLines_eq_filter, Text.tidyRows_trim, ← Text.tidyRows_trimStart,
    Text.trimStart_eq_self visible]
  exact List.filter_eq_self.mpr fun line mem => by simp [unfenced line mem]

/-- A text that starts with neither a blank nor a hyphen gets a mark before its lines. -/
theorem cleanYaml_eq_marked {c : Char} {text : List Char} (absent : ¬fence <:+: c :: text)
    (visible : Text.isBlank c = false) (other : c ≠ '-') :
    ∃ row rows, Text.tidyRows (c :: text) = (c :: row) :: rows ∧
      cleanYaml (c :: text) = Text.joinLines (documentStart :: (c :: row) :: rows) := by
  obtain ⟨row, rows, shape⟩ := Text.exists_tidyRows_cons visible text
  have unmarked : documentStart.isPrefixOf (c :: row) = false := by
    simp [documentStart, List.isPrefixOf, Ne.symm other]
  refine ⟨row, rows, shape, ?_⟩
  rw [cleanYaml, contentLines_eq_tidyRows absent (by simpa using visible), shape, markDocument,
    unmarked]
  rfl

/-- The mark of a document is no payload, but a marked line is one. -/
theorem isBlank_marked {c : Char} (visible : Text.isBlank c = false) (row : List Char)
    (rows : List (List Char)) :
    isBlank (.yaml (String.ofList (Text.joinLines (documentStart :: (c :: row) :: rows)))) =
      false := by
  obtain ⟨rest, shape⟩ : ∃ rest, Text.joinLines ((c :: row) :: rows) = c :: rest := by
    by_cases last : rows = []
    · exact ⟨row, by rw [last, Text.joinLines, List.intercalate_singleton]⟩
    · exact ⟨row ++ '\n' :: Text.joinLines rows, by rw [Text.joinLines_cons _ last]; rfl⟩
  have whole : Text.joinLines (documentStart :: (c :: row) :: rows) =
      ['-', '-', '-', '\n'] ++ c :: rest := by
    rw [Text.joinLines_cons _ (List.cons_ne_nil _ _), shape]
    rfl
  have trimmed : Text.trim (['-', '-', '-', '\n'] ++ c :: rest) =
      ['-', '-', '-', '\n'] ++ c :: Text.trimEnd rest := by
    rw [Text.trim, Text.trimStart_eq_self (by simp [Text.isBlank]),
      Text.trimEnd_append_cons _ visible]
  rw [isBlank]
  simp only [Payload.text, String.toList_ofList, whole, trimmed]
  rfl

end Payload

/-! ### Documents of pipelines -/

namespace Pipeline

/-- The YAML document that is written for a pipeline. Pipelines of two CI systems are written in
other formats. -/
def yaml? (settings : Settings) (pipeline : Pipeline) : Option Data :=
  match pipeline.variant with
  | .azureDevOps => some (Azure.write settings.azure pipeline)
  | .gitHubActions => some (GitHub.write settings.github pipeline)
  | .gitLabCi => some (GitLab.write settings.gitlab pipeline)
  | .bamboo => some (Bamboo.write settings.bamboo pipeline)
  | .circleCi => some (CircleCi.write settings.circleci pipeline)
  | .jenkins => none
  | .aws => none

/-- A document has fences only where its pipeline or the settings have them. -/
theorem unfenced_yaml {settings : Settings} {pipeline : Pipeline} {data : Data}
    (found : pipeline.yaml? settings = some data)
    (unfenced : ∀ text ∈ pipeline.texts, Unfenced text)
    (given : ∀ text ∈ settings.texts pipeline.variant, Unfenced text) :
    data.AllTexts Unfenced := by
  unfold yaml? at found
  unfold Settings.texts at given
  split at found
  · next variant =>
    cases found
    rw [variant] at given
    exact Azure.unfenced_write unfenced (given _ (by simp))
  · next variant =>
    cases found
    rw [variant] at given
    exact GitHub.unfenced_write unfenced (given _ (by simp)) (given _ (by simp))
  · next variant =>
    cases found
    rw [variant] at given
    exact GitLab.unfenced_write unfenced fun image mem => given image (Option.mem_toList.mpr mem)
  · next variant =>
    cases found
    rw [variant] at given
    exact Bamboo.unfenced_write unfenced (given _ (by simp)) (given _ (by simp)) (given _ (by simp))
  · next variant =>
    cases found
    rw [variant] at given
    exact CircleCi.unfenced_write unfenced (given _ (by simp)) (given _ (by simp))
  · cases found
  · cases found

/-- The keys that documents start with. -/
def firstKeys : List String := ["trigger", "name", "image", "stages", "version"]

/-- A pipeline that is written as a YAML document, and read as one in its dialect. -/
structure WritesYaml (settings : Settings) (pipeline : Pipeline) (data : Data) : Prop where
  text : pipeline.toText settings = .ok (Yaml.write data)
  payload (body : List Char) : Payload.ofBody pipeline.variant.defaultDialect body =
    .yaml (String.ofList (Payload.cleanYaml body))
  fields : ∃ key value fields, data = .record ((key, value) :: fields) ∧ key ∈ firstKeys

theorem writesYaml {settings : Settings} {pipeline : Pipeline} {data : Data}
    (found : pipeline.yaml? settings = some data) : WritesYaml settings pipeline data := by
  have first {key : String} (mem : key ∈ firstKeys) (value : Data) (fields : List (String × Data)) :
      ∃ name own others, Data.record ((key, value) :: fields) = .record ((name, own) :: others) ∧
        name ∈ firstKeys :=
    ⟨key, value, fields, rfl, mem⟩
  unfold yaml? at found
  split at found
  · next variant =>
    cases found
    exact ⟨by rw [toText, variant]; rfl, fun _ => by rw [variant]; rfl, first (by decide) _ _⟩
  · next variant =>
    cases found
    exact ⟨by rw [toText, variant]; rfl, fun _ => by rw [variant]; rfl, first (by decide) _ _⟩
  · next variant =>
    cases found
    refine ⟨by rw [toText, variant]; rfl, fun _ => by rw [variant]; rfl, ?_⟩
    unfold GitLab.write
    cases settings.gitlab.image with
    | none => exact ⟨"stages", _, _, rfl, by decide⟩
    | some image => exact ⟨"image", _, _, rfl, by decide⟩
  · next variant =>
    cases found
    exact ⟨by rw [toText, variant]; rfl, fun _ => by rw [variant]; rfl, first (by decide) _ _⟩
  · next variant =>
    cases found
    exact ⟨by rw [toText, variant]; rfl, fun _ => by rw [variant]; rfl, first (by decide) _ _⟩
  · cases found
  · cases found

open Yaml in
/-- A document starts with the first letter of its first key, and so without a mark. -/
theorem exists_writeDocument_cons {key : String} (mem : key ∈ firstKeys) (value : Data)
    (fields : List (String × Data)) :
    ∃ c text, writeDocument (.record ((key, value) :: fields)) = c :: text ∧
      Text.isBlank c = false ∧ c ≠ '-' := by
  have words : ∀ key ∈ firstKeys, isSimpleKey key = true ∧ styleOf key.toList = .plain ∧
      ∃ c rest, key.toList = c :: rest ∧ Text.isBlank c = false ∧ c ≠ '-' := by
    simp only [firstKeys, List.forall_mem_cons, List.not_mem_nil, false_implies, implies_true]
    refine ⟨⟨?_, ?_, 't', "rigger".toList, ?_⟩, ⟨?_, ?_, 'n', "ame".toList, ?_⟩,
      ⟨?_, ?_, 'i', "mage".toList, ?_⟩, ⟨?_, ?_, 's', "tages".toList, ?_⟩,
      ⟨?_, ?_, 'v', "ersion".toList, ?_⟩, trivial⟩ <;> decide
  obtain ⟨simple, plain, c, rest, shape, letter⟩ := words key mem
  have written : simpleKey key = c :: rest := by
    unfold simpleKey
    simp only [plain]
    exact shape
  have own : fieldText 0 (key, value) = c :: (rest ++ ':' :: afterKey 0 value) := by
    rw [fieldText, if_pos simple, written]
    rfl
  refine ⟨c, rest ++ ':' :: afterKey 0 value ++ (fieldTexts 0 fields).flatMap (spaces 0 ++ ·), ?_,
    letter⟩
  change fieldText 0 (key, value) ++ (fieldTexts 0 fields).flatMap (spaces 0 ++ ·) = _
  rw [own]
  rfl

section Written

variable {settings : Settings} {pipeline : Pipeline} {data : Data}

/-- **The payload of a written document** has all of its lines that are not blank, without blanks
at their ends, behind the mark of a document. -/
theorem payload_written (found : pipeline.yaml? settings = some data)
    (unfenced : data.AllTexts Unfenced) :
    Payload.ofText pipeline.variant.defaultDialect (Yaml.write data) =
      .ok (.yaml (String.ofList
        (Text.joinLines (documentStart :: Text.tidyRows (Yaml.writeDocument data))))) := by
  have writes := writesYaml found
  obtain ⟨key, value, fields, rfl, mem⟩ := writes.fields
  obtain ⟨c, text, shape, visible, other⟩ := exists_writeDocument_cons mem value fields
  have clear := Yaml.clear_writeDocument fun text mem =>
    Text.contains_eq_false_iff.mpr (unfenced text mem)
  have absent : ¬fence <:+: c :: text := shape ▸ Text.contains_eq_false_iff.mp clear.unfenced
  obtain ⟨row, rows, lines, cleaned⟩ := Payload.cleanYaml_eq_marked absent visible other
  rw [Payload.ofText, Yaml.write, String.toList_ofList, shape,
    Payload.fenced?_eq_none (Text.contains_eq_false_iff.mpr absent), Option.getD_none,
    writes.payload, cleaned, Payload.isBlank_marked visible, lines]
  rfl

/-- The payload of a steady text is the text without its last line end. -/
theorem joinLines_tidyRows {body : List Char} (steady : Text.Steady none (body ++ ['\n'])) :
    Text.joinLines (documentStart :: Text.tidyRows (body ++ ['\n'])) =
      Yaml.startMark true ++ body := by
  have blank : ∀ c ∈ ['\n'], Text.isBlank c = true := by decide
  rw [Text.tidyRows_append_of_blank body blank,
    Text.tidyRows_of_solid (Text.solid_of_mem_splitOn steady),
    Text.joinLines_cons _ (List.splitOn_ne_nil _ _), Text.joinLines, List.intercalate_splitOn]
  rfl

/-- A steady document has the value of its payload. -/
theorem toOption_decodeYaml_tidyRows {field : String × Data} {fields : List (String × Data)}
    (allowed : ∀ c ∈ Yaml.writeDocument (.record (field :: fields)), Yaml.isAllowed c = true)
    (steady : Text.Steady none (Yaml.writeDocument (.record (field :: fields))))
    (ends : Yaml.EndsSolid (Data.lastTextOfFields? (field :: fields))) :
    (Node.decodeYaml (String.ofList (Text.joinLines (documentStart ::
        Text.tidyRows (Yaml.writeDocument (.record (field :: fields))))))).toOption =
      (Node.decodeYaml (Yaml.write (.record (field :: fields)))).toOption := by
  have lineEnd : (Yaml.writeDocument (.record (field :: fields))).getLast? = some '\n' :=
    Yaml.getLast?_fieldTexts 0 ends fun field _ => Yaml.endsLine
  obtain ⟨body, shape⟩ := List.getLast?_eq_some_iff.mp lineEnd
  have cut : Text.joinLines
      (documentStart :: Text.tidyRows (Yaml.writeDocument (.record (field :: fields)))) =
      Yaml.startMark true ++ Yaml.cutEnd true (Yaml.writeDocument (.record (field :: fields))) := by
    rw [shape] at steady ⊢
    rw [joinLines_tidyRows steady, Yaml.cutEnd, if_pos rfl, List.dropLast_concat]
  rw [cut]
  exact Yaml.toOption_decodeYaml_eq true true allowed fun _ => ends

/-- A text that has the value of its payload is parsed as that value. -/
theorem parse_eq_ok_iff {dialect : Dialect} {text payload : String}
    (found : Payload.ofText dialect text = .ok (.yaml payload))
    (same : (Node.decodeYaml payload).toOption = (Node.decodeYaml text).toOption)
    (restored : Pipeline) :
    parse dialect text = .ok restored ↔
      ∃ tree, Node.decodeYaml text = .ok tree ∧ ofDocument dialect tree = .ok restored := by
  rw [parse, found]
  simp only [Source.ofPayload]
  rcases Yaml.toOption_cases same with ⟨e, e', left, right⟩ | ⟨tree, left, right⟩
  · rw [left, right]
    simp [Except.map]
  · rw [left, right]
    simp [Except.map, ofSource]

/-- **What is written for a pipeline without fences is read as it is**, if no line of it is blank or
ends in a blank, and it does not end with a literal block that ends with a line end of its text. -/
theorem decodeYaml_payload_iff (found : pipeline.yaml? settings = some data)
    (unfenced : ∀ text ∈ pipeline.texts, Unfenced text)
    (given : ∀ text ∈ settings.texts pipeline.variant, Unfenced text)
    (steady : Text.Steady none (Yaml.writeDocument data)) (ends : Yaml.EndsSolid data.lastText?) :
    pipeline.toText settings = .ok (Yaml.write data) ∧
      ∃ payload,
        Payload.ofText pipeline.variant.defaultDialect (Yaml.write data) = .ok (.yaml payload) ∧
        (∀ tree, Node.decodeYaml (Yaml.write data) = .ok tree ↔
          Node.decodeYaml payload = .ok tree) ∧
        ∀ restored, parse pipeline.variant.defaultDialect (Yaml.write data) = .ok restored ↔
          ∃ tree, Node.decodeYaml (Yaml.write data) = .ok tree ∧
            ofDocument pipeline.variant.defaultDialect tree = .ok restored := by
  have writes := writesYaml found
  have clean := unfenced_yaml found unfenced given
  have payload := payload_written found clean
  obtain ⟨key, value, fields, rfl, -⟩ := writes.fields
  have allowed := (Yaml.clear_writeDocument fun text mem =>
    Text.contains_eq_false_iff.mpr (clean text mem)).allowed
  have same := toOption_decodeYaml_tidyRows allowed steady ends
  refine ⟨writes.text, _, payload, fun tree => ?_, parse_eq_ok_iff payload same⟩
  rcases Yaml.toOption_cases same with ⟨e, e', left, right⟩ | ⟨other, left, right⟩
  · simp [left, right]
  · simp [left, right]

end Written

/-! ### Commands -/

/-- A pipeline with one command. -/
def ofCommand (command : String) : Pipeline where
  variant := .gitLabCi
  stages := [{ name := "build", jobs := [{ name := "j", steps := [.script command] }] }]

/-- A command of two lines is written as a literal block and read back. -/
theorem decodeYaml_payload_iff_twoLines :
    ∃ payload,
      Payload.ofText .gitlabCi (Yaml.write (GitLab.write {} (ofCommand "make\nmake test"))) =
        .ok (.yaml payload) ∧
      (∀ tree, Node.decodeYaml (Yaml.write (GitLab.write {} (ofCommand "make\nmake test"))) =
        .ok tree ↔ Node.decodeYaml payload = .ok tree) ∧
      ∀ restored, parse .gitlabCi (Yaml.write (GitLab.write {} (ofCommand "make\nmake test"))) =
        .ok restored ↔
          ∃ tree, Node.decodeYaml (Yaml.write (GitLab.write {} (ofCommand "make\nmake test"))) =
            .ok tree ∧ ofDocument .gitlabCi tree = .ok restored := by
  have found : (ofCommand "make\nmake test").yaml? {} =
      some (GitLab.write {} (ofCommand "make\nmake test")) := rfl
  exact (decodeYaml_payload_iff found (by decide) (by decide) (by decide +kernel)
    (by decide +kernel)).2

/-- The value that a document is written for is the value of its payload. -/
def Survives (dialect : Dialect) (data : Data) : Prop :=
  ∀ tree, Node.decodeYaml (Yaml.write data) = .ok tree →
    ∃ payload, Payload.ofText dialect (Yaml.write data) = .ok (.yaml payload) ∧
      Node.decodeYaml payload = .ok tree

theorem not_survives {data : Data} {before after : Pipeline}
    (written : (Node.decodeYaml (Yaml.write data)).toOption.map GitLab.read = some before)
    (parsed : (parse .gitlabCi (Yaml.write data)).toOption = some after)
    (changed : before ≠ after) : ¬Survives .gitlabCi data := by
  intro survives
  obtain ⟨tree, decoded, rfl⟩ := Option.map_eq_some_iff.mp written
  cases found : Node.decodeYaml (Yaml.write data) with
  | error error =>
    rw [found] at decoded
    cases decoded
  | ok value =>
    rw [found] at decoded
    cases decoded
    obtain ⟨payload, cleaned, same⟩ := survives tree found
    rw [parse, cleaned] at parsed
    simp only [Source.ofPayload, same, Except.map, ofSource, ofDocument] at parsed
    exact changed (Option.some.inj parsed)

/-- Commands are lost in part: one with an empty line, even where the last line end is not its own,
and one that ends with a line end, even where it has no empty line. -/
theorem not_survives_commands :
    (¬∀ (settings : Settings) (pipeline : Pipeline) (data : Data),
      pipeline.yaml? settings = some data →
      (∀ text ∈ pipeline.texts, Unfenced text) →
      (∀ text ∈ settings.texts pipeline.variant, Unfenced text) →
      Yaml.EndsSolid data.lastText? → Survives pipeline.variant.defaultDialect data) ∧
    ¬∀ (settings : Settings) (pipeline : Pipeline) (data : Data),
      pipeline.yaml? settings = some data →
      (∀ text ∈ pipeline.texts, Unfenced text) →
      (∀ text ∈ settings.texts pipeline.variant, Unfenced text) →
      Text.Steady none (Yaml.writeDocument data) →
      Survives pipeline.variant.defaultDialect data := by
  constructor
  · intro all
    have survives := all {} (ofCommand "a\n\nb") _ rfl (by decide) (by decide) (by decide +kernel)
    have written :
        (Node.decodeYaml (Yaml.write (GitLab.write {} (ofCommand "a\n\nb")))).toOption.map
          GitLab.read = some (ofCommand "a\n\nb") := by decide +kernel
    have parsed : (parse .gitlabCi (Yaml.write (GitLab.write {} (ofCommand "a\n\nb")))).toOption =
        some (ofCommand "a\nb") := by decide +kernel
    exact not_survives written parsed (by decide) survives
  · intro all
    have survives := all {} (ofCommand "a\n") _ rfl (by decide) (by decide) (by decide +kernel)
    have written : (Node.decodeYaml (Yaml.write (GitLab.write {} (ofCommand "a\n")))).toOption.map
        GitLab.read = some (ofCommand "a\n") := by decide +kernel
    have parsed : (parse .gitlabCi (Yaml.write (GitLab.write {} (ofCommand "a\n")))).toOption =
        some (ofCommand "a") := by decide +kernel
    exact not_survives written parsed (by decide) survives

end Pipeline

end CiTranslate

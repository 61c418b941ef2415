import CiTranslate.Proofs.Fields
import CiTranslate.Proofs.Text.Lines
import CiTranslate.Registry
import CiTranslate.Translate

/-!
The ways to write a pipeline for a CI system agree.

The emitters of all CI systems stand in the registry under the tags of their native dialects
(`emitters_builtin`), so that looking up a tag by itself and looking it up as a name of a dialect
end at one emitter (`get?_builtin`). An emitter never looks at the variant of a pipeline, so that
it does not matter for which CI system the pipeline was read.
-/

namespace CiTranslate

/-! ### Tags -/

namespace Dialect

/-- No tag has capitals, or blanks at its ends. -/
theorem ofTag?_tag (dialect : Dialect) : ofTag? dialect.tag = some dialect := by
  cases dialect <;> decide +kernel

theorem ofTag?_eq_some_iff {text : String} {dialect : Dialect} :
    ofTag? text = some dialect ↔
      (Text.trim text.toList).map Char.toLower = dialect.tag.toList := by
  constructor
  · intro found
    have tag := List.find?_some found
    rw [eq_of_beq tag, String.toList_ofList]
  · intro spelled
    have wanted : String.ofList ((Text.trim text.toList).map Char.toLower) = dialect.tag := by
      rw [spelled, String.ofList_toList]
    have own := ofTag?_tag dialect
    have again : (Text.trim dialect.tag.toList).map Char.toLower = dialect.tag.toList := by
      cases dialect <;> decide +kernel
    simp only [ofTag?, again, String.ofList_toList] at own
    simp only [ofTag?, wanted, own]

/-- A dialect is named by its tag in any case, between any blanks. -/
theorem ofTag?_eq_some_iff_spelled {text : String} {dialect : Dialect} :
    ofTag? text = some dialect ↔
      ∃ before word after, text.toList = before ++ word ++ after ∧
        (∀ c ∈ before, Text.isBlank c = true) ∧ (∀ c ∈ after, Text.isBlank c = true) ∧
        word.map Char.toLower = dialect.tag.toList := by
  rw [ofTag?_eq_some_iff]
  constructor
  · intro spelled
    obtain ⟨before, after, whole, blankBefore, blankAfter⟩ := Text.exists_blanks_trim text.toList
    exact ⟨before, _, after, whole, blankBefore, blankAfter, spelled⟩
  · rintro ⟨before, word, after, whole, blankBefore, blankAfter, spelled⟩
    have visible (c : Char) (mem : c ∈ word) : Text.isBlank c = false := by
      have letters : dialect.tag.toList.all (fun c => !Text.isBlank c) = true := by
        cases dialect <;> decide +kernel
      have small : c.toLower ∈ dialect.tag.toList :=
        spelled ▸ List.mem_map.mpr ⟨c, mem, rfl⟩
      refine Bool.eq_false_iff.mpr fun blank => ?_
      have visible := List.all_eq_true.mp letters _ small
      rw [Text.isBlank_toLower blank] at visible
      cases visible
    rw [whole, Text.trim_between blankBefore blankAfter
      (fun c head => visible c (List.mem_of_mem_head? head))
      (fun c last => visible c (List.mem_of_getLast? last)), spelled]

end Dialect

/-! ### Names of emitters -/

namespace Registry

/-- Every CI system has an emitter, under the tag of its native dialect. -/
theorem emitters_builtin (settings : Settings) :
    (builtin settings).emitters =
      Variant.all.map fun variant => (variant.defaultDialect.tag, settings.emitter variant) := rfl

theorem nodup_names_builtin (settings : Settings) :
    (Fields.names (builtin settings).emitters).Nodup := by
  have tags : Fields.names (builtin settings).emitters =
      Variant.all.map fun variant => variant.defaultDialect.tag := rfl
  rw [tags]
  decide +kernel

theorem get?_emitters_builtin (settings : Settings) (variant : Variant) :
    Fields.get? variant.defaultDialect.tag (builtin settings).emitters =
      some (settings.emitter variant) := by
  apply Fields.get?_eq_some_of_mem (nodup_names_builtin settings)
  rw [emitters_builtin]
  exact List.mem_map.mpr ⟨variant, variant.mem_all, rfl⟩

/-- A name has the emitter of the CI system of the dialect that it names. -/
theorem get?_builtin (settings : Settings) (name : String) :
    (builtin settings).get? name =
      (Dialect.ofTag? name).map fun dialect => settings.emitter dialect.variant := by
  by_cases listed : name ∈ Fields.names (builtin settings).emitters
  · -- The name is a tag itself, and names the dialect of that tag.
    rw [emitters_builtin, Fields.names, List.map_map] at listed
    obtain ⟨variant, -, rfl⟩ := List.mem_map.mp listed
    rw [Function.comp_apply, get?, get?_emitters_builtin, Option.some_or, Dialect.ofTag?_tag,
      Option.map_some, Variant.variant_defaultDialect]
  · rw [get?, Fields.get?_eq_none listed, Option.none_or, nativeFormat?]
    cases Dialect.ofTag? name with
    | none => rfl
    | some dialect =>
      rw [Option.map_some, Option.bind_some, get?_emitters_builtin, Option.map_some]

end Registry

/-- An emitter does not look at the variant of a pipeline. -/
theorem Emitter.write_retarget (settings : Settings) (target variant : Variant)
    (pipeline : Pipeline) :
    (settings.emitter target).write (pipeline.retarget variant) =
      (settings.emitter target).write pipeline := by
  cases target <;> rfl

namespace Registry

theorem emit_builtin (settings : Settings) (name : String) (pipeline : Pipeline) :
    (builtin settings).emit name pipeline =
      match Dialect.ofTag? name with
      | some dialect => (pipeline.retarget dialect.variant).toText settings
      | none => .error (.unsupportedDialect name) := by
  rw [emit, get?_builtin]
  cases Dialect.ofTag? name with
  | none => rfl
  | some dialect => exact (Emitter.write_retarget settings _ _ pipeline).symm

/-- The names of emitters are the names of dialects. -/
theorem has_builtin (settings : Settings) (name : String) :
    (builtin settings).has name = (Dialect.ofTag? name).isSome := by
  rw [has, get?_builtin, Option.isSome_map]

/-- A translation is what the emitter writes that any name of the target has. -/
theorem translate_eq (settings : Settings) (source : Dialect) {target : Dialect} {name : String}
    (named : Dialect.ofTag? name = some target) (text : String) :
    translate settings source target text =
      match Pipeline.parse source text with
      | .error error => .error error
      | .ok pipeline => (builtin settings).emit name pipeline := by
  rw [translate]
  cases Pipeline.parse source text with
  | error error => rfl
  | ok pipeline => simp only [emit_builtin, named]

/-- **All ways to write a pipeline agree.** A name that is the tag of a dialect, in any case and
between any blanks, writes what the pipeline is for the CI system of that dialect, errors included,
whatever CI system it was for. All other names have no emitter and are reported as they are. A
translation writes the same under any name of its target, unless the text cannot be read. -/
theorem dispatch_agrees (settings : Settings) (name : String) :
    let registry := builtin settings
    (∀ dialect, Dialect.ofTag? name = some dialect ↔
      ∃ before word after, name.toList = before ++ word ++ after ∧
        (∀ c ∈ before, Text.isBlank c = true) ∧ (∀ c ∈ after, Text.isBlank c = true) ∧
        word.map Char.toLower = dialect.tag.toList) ∧
    (∀ pipeline, registry.emit name pipeline =
      match Dialect.ofTag? name with
      | some dialect => (pipeline.retarget dialect.variant).toText settings
      | none => .error (.unsupportedDialect name)) ∧
    registry.has name = (Dialect.ofTag? name).isSome ∧
    (∀ pipeline variant,
      registry.emit name (pipeline.retarget variant) = registry.emit name pipeline) ∧
    ∀ source target text, Dialect.ofTag? name = some target →
      translate settings source target text =
        match Pipeline.parse source text with
        | .error error => .error error
        | .ok pipeline => registry.emit name pipeline := by
  intro registry
  refine ⟨fun dialect => Dialect.ofTag?_eq_some_iff_spelled, emit_builtin settings name,
    has_builtin settings name, fun pipeline variant => ?_,
    fun source target text named => translate_eq settings source named text⟩
  have same (dialect : Dialect) :
      (pipeline.retarget variant).retarget dialect.variant = pipeline.retarget dialect.variant := rfl
  rw [emit_builtin, emit_builtin]
  cases Dialect.ofTag? name with
  | none => rfl
  | some dialect => exact congrArg (Pipeline.toText settings) (same dialect)

/-- The other tag of Jenkins, in capitals, names the emitter that a translation to Jenkins ends
with. -/
theorem dispatch_agrees_scripted :
    Dialect.ofTag? "\n Jenkinsfile-SCRIPTED " = some .jenkinsfileScripted ∧
      (builtin {}).has "\n Jenkinsfile-SCRIPTED " = true ∧
      translate {} .gitlabCi .jenkinsfileScripted "stages: [a]" =
        .ok (Jenkins.write {} { variant := .gitLabCi, stages := [{ name := "a" }] }) := by
  have named : Dialect.ofTag? "\n Jenkinsfile-SCRIPTED " = some .jenkinsfileScripted := by
    decide +kernel
  have parsed : Pipeline.parse .gitlabCi "stages: [a]" =
      .ok { variant := .gitLabCi, stages := [{ name := "a" }] } := by
    have found : (Pipeline.parse .gitlabCi "stages: [a]").toOption =
        some { variant := .gitLabCi, stages := [{ name := "a" }] } := by
      decide +kernel
    cases result : Pipeline.parse .gitlabCi "stages: [a]" with
    | error error =>
      rw [result] at found
      cases found
    | ok pipeline =>
      rw [result] at found
      exact congrArg Except.ok (Option.some.inj found)
  obtain ⟨-, emits, has, -, translates⟩ := dispatch_agrees {} "\n Jenkinsfile-SCRIPTED "
  refine ⟨named, by rw [has, named]; rfl, ?_⟩
  simp only [translates .gitlabCi .jenkinsfileScripted _ named, parsed, emits, named]
  rfl

end Registry

end CiTranslate

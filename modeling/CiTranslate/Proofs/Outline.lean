import CiTranslate.Proofs.Json.Compare
import CiTranslate.Proofs.RoundTrip.Azure
import CiTranslate.Proofs.RoundTrip.Bamboo
import CiTranslate.Proofs.RoundTrip.CircleCi
import CiTranslate.Proofs.RoundTrip.CodePipeline
import CiTranslate.Proofs.RoundTrip.GitHub
import CiTranslate.Proofs.RoundTrip.GitLab

/-!
Names in documents that are read, written and read again.

Converters take names that documents are not written with: a job that is listed twice, a job
without a name, or jobs in a stage where only actions are written. Such a name is replaced, once
and for all. All other names stay (`outline_round_trip`), and so do the steps, in their stages and
in their order.
-/

namespace CiTranslate

/-- A value in a format: as a text, and as the document that the text stands for. -/
structure Written where
  text : String
  document : Node

namespace Written

def yaml (data : Data) : Written := ⟨Yaml.write data, .ofYaml data⟩

def json (data : Data) : Written := ⟨Json.writePretty data, .ofJson data⟩

end Written

namespace Pipeline

/-- What is written for a pipeline. Jenkins pipelines are written as scripts. -/
def written? (settings : Settings) (pipeline : Pipeline) : Option Written :=
  match pipeline.variant with
  | .azureDevOps => some (.yaml (Azure.write settings.azure pipeline))
  | .gitHubActions => some (.yaml (GitHub.write settings.github pipeline))
  | .gitLabCi => some (.yaml (GitLab.write settings.gitlab pipeline))
  | .jenkins => none
  | .bamboo => some (.yaml (Bamboo.write settings.bamboo pipeline))
  | .circleCi => some (.yaml (CircleCi.write settings.circleci pipeline))
  | .aws => some (.json (CodePipeline.write pipeline))

/-- The names are those that a document of the CI system is written with: keys of jobs, and in
CodePipeline the name of the job that holds the actions of a stage. -/
def NamesFit (pipeline : Pipeline) : Prop :=
  match pipeline.variant with
  | .azureDevOps => True
  | .gitHubActions =>
    pipeline.stageNames.Nodup ∧ ∀ name ∈ pipeline.stageNames, identifier true name = name
  | .gitLabCi => ∀ job ∈ pipeline.jobs, job.name ≠ ""
  | .jenkins => False
  | .bamboo =>
    (pipeline.jobs.map Job.name).Nodup ∧ ∀ job ∈ pipeline.jobs, job.name ∉ Bamboo.reservedKeys
  | .circleCi => pipeline.stageNames.Nodup
  | .aws => ∀ stage ∈ pipeline.stages, stage.jobs.map Job.name = [stageJobName stage.name]

instance (pipeline : Pipeline) : Decidable pipeline.NamesFit :=
  match pipeline with
  | ⟨.azureDevOps, _⟩ => .isTrue trivial
  | ⟨.gitHubActions, _⟩ => instDecidableAnd
  | ⟨.gitLabCi, _⟩ => List.decidableBAll _ _
  | ⟨.jenkins, _⟩ => .isFalse id
  | ⟨.bamboo, _⟩ => instDecidableAnd
  | ⟨.circleCi, _⟩ => List.nodupDecidable _
  | ⟨.aws, _⟩ => List.decidableBAll _ _

/-! ### One CI system after the other -/

/-- What becomes of the names of a pipeline that is written and read. -/
structure Restores (pipeline restored : Pipeline) : Prop where
  /-- The names change where they do not fit, and only there. -/
  outline : restored.outline = pipeline.outline ↔ pipeline.NamesFit
  /-- Steps stay in their stages, under their names. -/
  steps : restored.stages.map Stage.stepNames = pipeline.stages.map Stage.stepNames
  /-- Afterwards all names fit. -/
  fits : restored.NamesFit

theorem restores_azure (document : Node) :
    Restores (Azure.read document)
      (Azure.read (.ofYaml (Azure.write {} (Azure.read document)))) where
  outline := iff_of_true (Azure.outline_read_write rfl _) trivial
  steps := Azure.map_stepNames_read_write {} _
  fits := trivial

theorem restores_gitHub (document : Node) :
    Restores (GitHub.read document)
      (GitHub.read (.ofYaml (GitHub.write {} (GitHub.read document)))) where
  outline := GitHub.outline_read_write_iff {} fun _ => GitHub.exists_job_of_read
  steps := GitHub.map_stepNames_read_write {} _
  fits := GitHub.fits_read_write {} _

theorem namesFit_gitLab (document : Node) :
    (GitLab.read document).NamesFit ↔ ∀ job ∈ (GitLab.read document).jobs, job.name ≠ "" := by
  simp only [NamesFit, GitLab.variant_read]

theorem restores_gitLab {document : Node} (distinct : document.KeysDistinct) :
    Restores (GitLab.read document)
      (GitLab.read (.ofYaml (GitLab.write {} (GitLab.read document)))) where
  outline := (GitLab.outline_read_write_iff {} distinct).trans (namesFit_gitLab document).symm
  steps := GitLab.map_stepNames_read_write {} document
  fits := (namesFit_gitLab _).mpr fun _ mem =>
    (GitLab.visible_iff.mp (GitLab.visible_of_mem_jobs mem)).1

theorem restores_bamboo (document : Node) :
    Restores (Bamboo.read document)
      (Bamboo.read (.ofYaml (Bamboo.write {} (Bamboo.read document)))) where
  outline := Bamboo.outline_read_write_iff {} _
  steps := Bamboo.map_stepNames_read_write {} _
  fits := Bamboo.fits_read_write {} _

theorem restores_circleCi (document : Node) :
    Restores (CircleCi.read document)
      (CircleCi.read (.ofYaml (CircleCi.write {} (CircleCi.read document)))) where
  outline := CircleCi.outline_read_write_iff {}
    (fun _ mem => (CircleCi.outline_of_read mem).1) (fun _ mem => (CircleCi.outline_of_read mem).2)
  steps := CircleCi.map_stepNames_read_write {} fun _ mem => (CircleCi.outline_of_read mem).2
  fits := CircleCi.fits_read_write {} _

theorem restores_codePipeline {document : Node}
    (busy : ∀ stage ∈ (CodePipeline.read document).stages, stage.steps ≠ []) :
    Restores (CodePipeline.read document)
      (CodePipeline.read (.ofJson (CodePipeline.write (CodePipeline.read document)))) where
  outline := CodePipeline.outline_read_write_iff busy
  steps := CodePipeline.map_stepNames_read_write busy
  fits := CodePipeline.fits_read_write busy

/-! ### Documents -/

/-- The keys of a mapping in a document that was decoded are distinct. -/
theorem keysDistinct_of_decode {source : String} {document : Node}
    (decoded : Node.decodeYaml source = .ok document ∨ Node.decodeJson source = .ok document) :
    document.KeysDistinct := by
  have same {node : Node} (root : node.root = .ok document) : node = document := by
    unfold Node.root at root
    split at root
    · cases root
    · cases root
    · exact Except.ok.inj root
    · cases root
  rcases decoded with yaml | json
  · unfold Node.decodeYaml at yaml
    split at yaml
    · rw [← same yaml]
      exact Node.keysDistinct_ofValue _
    · cases yaml
  · unfold Node.decodeJson at json
    split at json
    · rw [← same json]
      exact Node.keysDistinct_ofData _
    · cases json

/-- **Names that fit stay.** A pipeline that was read from a document of any CI system but Jenkins,
and that can be written, is read back from what is written for it, by the same converter. Its
outline is the same exactly where its names fit: keys of jobs are distinct identifiers in GitHub
Actions, distinct and not reserved in Bamboo, distinct in CircleCI and not empty in GitLab, and a
CodePipeline stage is one job that is named after it. The steps of every stage keep their names and
their order in any case, and the names of what was read back fit. -/
theorem outline_round_trip {dialect : Dialect} (documents : dialect.isScript = false)
    {source : String} {document : Node}
    (decoded : Node.decodeYaml source = .ok document ∨ Node.decodeJson source = .ok document)
    {pipeline : Pipeline} (converted : ofDocument dialect document = .ok pipeline) {text : String}
    (emitted : pipeline.toText {} = .ok text) :
    ∃ written restored, pipeline.written? {} = some written ∧ written.text = text ∧
      ofDocument dialect written.document = .ok restored ∧
      (restored.outline = pipeline.outline ↔ pipeline.NamesFit) ∧
      restored.stages.map (fun stage => stage.steps.map Step.name) =
        pipeline.stages.map (fun stage => stage.steps.map Step.name) ∧
      restored.NamesFit := by
  suffices restores : ∃ written restored, pipeline.written? {} = some written ∧
      written.text = text ∧ ofDocument dialect written.document = .ok restored ∧
      Restores pipeline restored by
    obtain ⟨written, restored, found, spelled, again, names⟩ := restores
    exact ⟨written, restored, found, spelled, again, names.outline, names.steps, names.fits⟩
  cases dialect with
  | jenkinsfileScripted => cases documents
  | jenkinsfileDeclarative => cases documents
  | azurePipelines =>
    cases converted
    exact ⟨_, _, rfl, Except.ok.inj emitted, rfl, restores_azure document⟩
  | gitlabCi =>
    cases converted
    have found : (GitLab.read document).written? {} =
        some (.yaml (GitLab.write {} (GitLab.read document))) := by
      simp only [written?, GitLab.variant_read]
    have spelled : (GitLab.read document).toText {} =
        .ok (Yaml.write (GitLab.write {} (GitLab.read document))) := by
      rw [toText, GitLab.variant_read]
      rfl
    have distinct := keysDistinct_of_decode decoded
    exact ⟨_, _, found, Except.ok.inj (spelled.symm.trans emitted), rfl, restores_gitLab distinct⟩
  | githubActions =>
    cases converted
    exact ⟨_, _, rfl, Except.ok.inj emitted, rfl, restores_gitHub document⟩
  | bamboo =>
    cases converted
    exact ⟨_, _, rfl, Except.ok.inj emitted, rfl, restores_bamboo document⟩
  | circleci =>
    cases converted
    exact ⟨_, _, rfl, Except.ok.inj emitted, rfl, restores_circleCi document⟩
  | codepipeline =>
    cases converted
    have aws : ((CodePipeline.read document).retarget .aws).toText {} = .ok text := emitted
    obtain ⟨⟨-, busy⟩, spelled⟩ := CodePipeline.toText_eq_ok_iff.mp aws
    exact ⟨_, _, rfl, spelled, rfl, restores_codePipeline busy⟩

/-- Specs in which a job is spelled out in its stage. -/
def spelledOut : String :=
  "\x7b\"stages\":[\x7b\"s\":\x7b\"jobs\":[\x7b\"name\":\"a b\"\x7d]\x7d\x7d]\x7d"

/-- The document of `spelledOut`. -/
def spelledOutDocument : Node :=
  .mapping [("stages", .sequence [.mapping [("s",
    .mapping [("jobs", .sequence [.mapping [("name", .scalar "a b")]])])]])]

/-- A text is decoded to the document of the data that it is compared with. -/
theorem decodeJson_eq_ok {source : String} (data : Data) {document : Node}
    (found : (Json.readChars source.toList).toOption.any (Data.same · data) = true)
    (root : (Node.ofJson data).root = .ok document) : Node.decodeJson source = .ok document := by
  rw [Node.decodeJson, Json.read_eq_ok (Json.readChars_eq_ok found)]
  exact root

/-- A job that is spelled out in its stage keeps its name as the key that it is written with. -/
theorem outline_round_trip_spelledOut :
    ∃ document pipeline text written restored, Node.decodeJson spelledOut = .ok document ∧
      ofDocument .bamboo document = .ok pipeline ∧ pipeline.toText {} = .ok text ∧
      pipeline.written? {} = some written ∧ written.text = text ∧
      ofDocument .bamboo written.document = .ok restored ∧
      restored.outline = [("s", [("a b", [])])] := by
  have decoded : Node.decodeJson spelledOut = .ok spelledOutDocument :=
    decodeJson_eq_ok (.record [("stages", .list [.record [("s",
      .record [("jobs", .list [.record [("name", .text "a b")]])])]])]) (by decide +kernel) rfl
  have documents : Dialect.bamboo.isScript = false := rfl
  have fits : (Bamboo.read spelledOutDocument).NamesFit := by decide +kernel
  have outline : (Bamboo.read spelledOutDocument).outline = [("s", [("a b", [])])] := by
    decide +kernel
  obtain ⟨written, restored, found, spelled, again, same, -, -⟩ :=
    outline_round_trip documents (.inr decoded) rfl rfl
  exact ⟨_, _, _, written, restored, decoded, rfl, rfl, found, spelled, again,
    (same.mpr fits).trans outline⟩

/-- A JSON text whose names are other ones after they were read, written and read again. -/
structure Renames (dialect : Dialect) (source : String)
    (before after : List (String × List (String × List String))) : Prop where
  differ : before ≠ after
  changes : ∃ document pipeline text written restored,
    Node.decodeJson source = .ok document ∧ ofDocument dialect document = .ok pipeline ∧
      pipeline.toText {} = .ok text ∧ pipeline.written? {} = some written ∧
      written.text = text ∧ ofDocument dialect written.document = .ok restored ∧
      pipeline.outline = before ∧ restored.outline = after

/-- In all CI systems but one there are documents whose names change: a job whose key is no
identifier, a job without a name, a job that is listed twice, two jobs of one name, and a job in
place of actions. -/
theorem outline_changes :
    Renames .githubActions "\x7b\"jobs\":\x7b\"a b\":\x7b\x7d\x7d\x7d"
        [("a b", [("a b", [])])] [("a_b", [("a b", [])])] ∧
      Renames .gitlabCi "\x7b\"\":\x7b\x7d\x7d"
        [("build", []), ("test", [("", [])]), ("deploy", [])]
        [("build", []), ("test", [("job", [])]), ("deploy", [])] ∧
      Renames .bamboo "\x7b\"stages\":[\x7b\"s\":\x7b\"jobs\":[\"a\",\"a\"]\x7d\x7d]\x7d"
        [("s", [("a", []), ("a", [])])] [("s", [("a", []), ("a-2", [])])] ∧
      Renames .circleci "\x7b\"jobs\":[\x7b\"name\":\"a\"\x7d,\x7b\"name\":\"a\"\x7d]\x7d"
        [("a", [("a", [])]), ("a", [("a", [])])] [("a", [("a", [])]), ("a-2", [("a-2", [])])] ∧
      Renames .codepipeline
        "\x7b\"stages\":[\x7b\"name\":\"s\",\"jobs\":[\x7b\"name\":\"a\",\"steps\":[\"c\"]\x7d]\x7d]\x7d"
        [("s", [("a", ["Unnamed Step"])])] [("s", [("s_job", ["Unnamed Step"])])] := by
  refine ⟨⟨by decide, _, _, _, _, _, decodeJson_eq_ok (.record [("jobs",
      .record [("a b", .record [])])]) (by decide +kernel) rfl, rfl, rfl, rfl, rfl, rfl, ?_, ?_⟩,
    ⟨by decide, _, _, _, _, _, decodeJson_eq_ok (.record [("", .record [])])
      (by decide +kernel) rfl, rfl, rfl, rfl, rfl, rfl, ?_, ?_⟩,
    ⟨by decide, _, _, _, _, _, decodeJson_eq_ok (.record [("stages", .list [.record [("s",
      .record [("jobs", .list [.text "a", .text "a"])])]])]) (by decide +kernel) rfl,
      rfl, rfl, rfl, rfl, rfl, ?_, ?_⟩,
    ⟨by decide, _, _, _, _, _, decodeJson_eq_ok (.record [("jobs",
      .list [.record [("name", .text "a")], .record [("name", .text "a")]])])
      (by decide +kernel) rfl, rfl, rfl, rfl, rfl, rfl, ?_, ?_⟩,
    ⟨by decide, _, _, _, _, _, decodeJson_eq_ok (.record [("stages", .list [.record
      [("name", .text "s"), ("jobs", .list [.record [("name", .text "a"),
        ("steps", .list [.text "c"])]])]])]) (by decide +kernel) rfl,
      rfl, rfl, rfl, rfl, rfl, ?_, ?_⟩⟩
  -- Before and after, for one CI system after the other.
  all_goals decide +kernel

end Pipeline

end CiTranslate

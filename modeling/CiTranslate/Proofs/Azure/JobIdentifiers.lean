import CiTranslate.Pipeline.Shape
import CiTranslate.Proofs.Identifier.Alike
import CiTranslate.Proofs.RoundTrip.Bamboo
import CiTranslate.Proofs.RoundTrip.CircleCi
import CiTranslate.Proofs.RoundTrip.GitHub
import CiTranslate.Proofs.RoundTrip.GitLab
import CiTranslate.Provider.Azure

/-!
The identifiers of jobs in Azure's documents, and the keys of jobs in the others'.

The keys of jobs are handed out one by one, so that they are distinct whatever the names are
(`hasJobs_gitHub` and its like for GitLab, Bamboo and CircleCI). An identifier on the other hand is
made from the name of its job alone, without a look at the others. Two jobs that stand in one list
therefore have the same identifier when their names are alike, and only then
(`nodup_jobIdentifiers_iff`).
-/

namespace CiTranslate

/-! ### Keys of jobs -/

/-- The names of the fields that define jobs: all that are not reserved. -/
def jobFieldNames (reserved : List String) : Data → List String
  | .record fields => (Fields.names fields).filter fun name => !reserved.contains name
  | _ => []

/-- A record defines a number of jobs, each under a name of its own. -/
def HasJobs (reserved : List String) (count : Nat) (document : Data) : Prop :=
  (jobFieldNames reserved document).Nodup ∧ (jobFieldNames reserved document).length = count

/-- Fields that are not reserved, after such as are, are the fields of jobs. -/
theorem jobFieldNames_append {reserved : List String} {configuration jobs : List (String × Data)}
    (own : ∀ name ∈ Fields.names configuration, name ∈ reserved)
    (free : ∀ name ∈ Fields.names jobs, name ∉ reserved) :
    jobFieldNames reserved (.record (configuration ++ jobs)) = Fields.names jobs := by
  rw [jobFieldNames, Fields.names_append, List.filter_append]
  have none : (Fields.names configuration).filter (fun name => !reserved.contains name) = [] :=
    List.filter_eq_nil_iff.mpr fun name mem => by simp [own name mem]
  have all : (Fields.names jobs).filter (fun name => !reserved.contains name) =
      Fields.names jobs :=
    List.filter_eq_self.mpr fun name mem => by simp [free name mem]
  rw [none, all, List.nil_append]

theorem hasJobs_zip {keys : List String} {jobs : List Data} (distinct : keys.Nodup)
    (lengths : keys.length = jobs.length) : HasJobs [] jobs.length (.record (keys.zip jobs)) := by
  have names : jobFieldNames [] (.record (keys.zip jobs)) = keys := by
    simp [jobFieldNames, Fields.names_zip lengths]
  rw [HasJobs, names]
  exact ⟨distinct, lengths⟩

theorem hasJobs_gitHub (settings : GitHubSettings) (pipeline : Pipeline) :
    ∃ jobs, (GitHub.write settings pipeline).field? "jobs" = some jobs ∧
      HasJobs [] pipeline.stages.length jobs := by
  refine ⟨_, rfl, ?_⟩
  have lengths : (GitHub.jobKeys pipeline).length =
      (pipeline.stages.map (GitHub.writeStage settings)).length := by simp
  simpa using hasJobs_zip (GitHub.nodup_jobKeys pipeline) lengths

theorem hasJobs_circleCi (settings : CircleCiSettings) (pipeline : Pipeline) :
    ∃ jobs, (CircleCi.write settings pipeline).field? "jobs" = some jobs ∧
      HasJobs [] pipeline.stages.length jobs := by
  refine ⟨_, rfl, ?_⟩
  have lengths : (CircleCi.jobKeys pipeline).length =
      (pipeline.stages.map (CircleCi.writeStage settings)).length := by simp
  simpa using hasJobs_zip (CircleCi.nodup_jobKeys pipeline) lengths

theorem hasJobs_gitLab (settings : GitLabSettings) (pipeline : Pipeline) :
    HasJobs GitLab.reservedKeys (pipeline.stages.flatMap Stage.jobs).length
      (GitLab.write settings pipeline) := by
  have names : jobFieldNames GitLab.reservedKeys (GitLab.write settings pipeline) =
      GitLab.jobKeys pipeline := by
    rw [GitLab.write_eq, ← GitLab.names_jobFields]
    refine jobFieldNames_append (fun name mem => ?_) fun name mem => ?_
    · obtain ⟨field, own, rfl⟩ := List.mem_map.mp mem
      exact GitLab.configuration_reserved settings pipeline field own
    · rw [Fields.names, GitLab.names_jobFields] at mem
      exact GitLab.not_mem_reservedKeys mem
  rw [HasJobs, names, GitLab.length_jobKeys, ← GitLab.map_snd_stagedJobs, List.length_map]
  exact ⟨GitLab.nodup_jobKeys pipeline, rfl⟩

theorem hasJobs_bamboo (settings : BambooSettings) (pipeline : Pipeline) :
    HasJobs Bamboo.reservedKeys (pipeline.stages.flatMap Stage.jobs).length
      (Bamboo.write settings pipeline) := by
  have names : jobFieldNames Bamboo.reservedKeys (Bamboo.write settings pipeline) =
      Bamboo.jobKeys pipeline := by
    have jobs : Fields.names ((Bamboo.jobKeys pipeline).zip
        ((Bamboo.allJobs pipeline).map Bamboo.writeJob)) = Bamboo.jobKeys pipeline :=
      Fields.names_zip (by simp)
    rw [Bamboo.write_eq]
    refine (jobFieldNames_append (fun name mem => ?_) fun name mem => ?_).trans jobs
    · revert name
      simp [Bamboo.planFields, Bamboo.reservedKeys]
    · rw [jobs] at mem
      exact Bamboo.not_mem_reservedKeys mem
  rw [HasJobs, names, Bamboo.length_jobKeys]
  exact ⟨Bamboo.nodup_jobKeys pipeline, rfl⟩

namespace Azure

/-! ### Identifiers of jobs -/

/-- The identifiers of the jobs in the list of a stage or of a whole document. -/
def jobIdentifiers (node : Data) : List String :=
  (Job.itemsOf "jobs" node).filterMap (Data.textField? "job")

theorem textField?_writeJob (name : String) (steps : List Step) :
    (writeJob name steps).textField? "job" = some (identifier false name) := rfl

/-- Every job has an identifier, which is made from its name alone. -/
theorem filterMap_writeJob {α : Type} (items : List α) (name : α → String)
    (steps : α → List Step) :
    (items.map fun item => writeJob (name item) (steps item)).filterMap
        (Data.textField? "job") = (items.map name).map (identifier false) := by
  rw [List.filterMap_map, List.map_map]
  simp only [Function.comp_def, textField?_writeJob]
  exact congrFun List.filterMap_eq_map' items

theorem jobIdentifiers_writeStage (stage : Stage) :
    jobIdentifiers (writeStage stage) = (stage.jobs.map Job.name).map (identifier false) :=
  filterMap_writeJob stage.jobs Job.name Job.steps

theorem stages_write (branch : String) (pipeline : Pipeline) :
    Job.itemsOf "stages" (write { layout := .stages, branch } pipeline) =
      pipeline.stages.map writeStage := rfl

theorem jobIdentifiers_write (branch : String) (pipeline : Pipeline) :
    jobIdentifiers (write { layout := .jobs, branch } pipeline) =
      pipeline.stageNames.map (identifier false) :=
  filterMap_writeJob pipeline.stages Stage.name Stage.steps

/-- Names of which no two are alike. -/
def NoneAlike (names : List String) : Prop :=
  names.Pairwise fun name other =>
    ¬Alike false (Text.trim name.toList) (Text.trim other.toList)

theorem nodup_map_identifier_iff {names : List String} :
    (names.map (identifier false)).Nodup ↔ NoneAlike names := by
  rw [List.Nodup, List.pairwise_map]
  simp only [NoneAlike, ne_eq, identifier_eq_iff]

/-- **When the identifiers of jobs are distinct.** In the list of a stage, and in that of a document
without stages, every job has the identifier of its name, or of that of its stage. They are distinct
exactly if no two of the names are alike. The keys of jobs in all other documents that are written
with keys are distinct for every pipeline, and there is one for every job. -/
theorem nodup_jobIdentifiers_iff (branch : String) (pipeline : Pipeline) :
    let staged := write { layout := .stages, branch } pipeline
    let joined := write { layout := .jobs, branch } pipeline
    ((Job.itemsOf "stages" staged).map jobIdentifiers =
        pipeline.stages.map fun stage => (stage.jobs.map Job.name).map (identifier false)) ∧
      ((∀ stage ∈ Job.itemsOf "stages" staged, (jobIdentifiers stage).Nodup) ↔
        ∀ stage ∈ pipeline.stages, NoneAlike (stage.jobs.map Job.name)) ∧
      jobIdentifiers joined = pipeline.stageNames.map (identifier false) ∧
      ((jobIdentifiers joined).Nodup ↔ NoneAlike pipeline.stageNames) ∧
      (∀ settings : GitHubSettings, ∃ jobs,
        (GitHub.write settings pipeline).field? "jobs" = some jobs ∧
          HasJobs [] pipeline.stages.length jobs) ∧
      (∀ settings : CircleCiSettings, ∃ jobs,
        (CircleCi.write settings pipeline).field? "jobs" = some jobs ∧
          HasJobs [] pipeline.stages.length jobs) ∧
      (∀ settings : GitLabSettings,
        HasJobs GitLab.reservedKeys (pipeline.stages.flatMap Stage.jobs).length
          (GitLab.write settings pipeline)) ∧
      ∀ settings : BambooSettings,
        HasJobs Bamboo.reservedKeys (pipeline.stages.flatMap Stage.jobs).length
          (Bamboo.write settings pipeline) := by
  intro staged joined
  have identifiers : (Job.itemsOf "stages" staged).map jobIdentifiers =
      pipeline.stages.map fun stage => (stage.jobs.map Job.name).map (identifier false) := by
    rw [stages_write, List.map_map]
    exact List.map_congr_left fun stage _ => jobIdentifiers_writeStage stage
  refine ⟨identifiers, ?_, jobIdentifiers_write branch pipeline, ?_,
    fun settings => hasJobs_gitHub settings pipeline,
    fun settings => hasJobs_circleCi settings pipeline,
    fun settings => hasJobs_gitLab settings pipeline,
    fun settings => hasJobs_bamboo settings pipeline⟩
  · simp only [staged, stages_write, List.forall_mem_map, jobIdentifiers_writeStage,
      nodup_map_identifier_iff]
  · rw [jobIdentifiers_write, nodup_map_identifier_iff]

/-- Two jobs, and two stages, whose names differ in a blank and an underscore. -/
def unitTests : Pipeline where
  variant := .azureDevOps
  stages :=
    [{ name := "unit tests", jobs := [{ name := "unit tests" }, { name := "unit_tests" }] },
      { name := "unit_tests" }]

/-- Identifiers are not always distinct, in either layout. -/
theorem not_nodup_jobIdentifiers :
    (¬∀ (branch : String) (pipeline : Pipeline),
      ∀ stage ∈ Job.itemsOf "stages" (write { layout := .stages, branch } pipeline),
        (jobIdentifiers stage).Nodup) ∧
    ¬∀ (branch : String) (pipeline : Pipeline),
      (jobIdentifiers (write { layout := .jobs, branch } pipeline)).Nodup := by
  constructor
  · intro always
    have staged := always "main" unitTests _ (List.mem_cons_self ..)
    revert staged
    decide
  · intro always
    have joined := always "main" unitTests
    revert joined
    decide

end Azure

end CiTranslate

import CiTranslate.Proofs.Fields
import CiTranslate.Proofs.Payload.Unfenced
import CiTranslate.Provider.Azure
import CiTranslate.Provider.Bamboo
import CiTranslate.Provider.CircleCi
import CiTranslate.Provider.GitHub
import CiTranslate.Provider.GitLab

/-!
Where the texts of a document come from.

A document takes its texts from a pipeline and from settings. The words that the writers add have no
backticks, and what they make of names, commands and parameters has a fence only where these have
one. So a document of a pipeline without fences has no fences in its texts (`Azure.unfenced_write`
and the others).
-/

namespace CiTranslate

open Payload (Unfenced)

/-! ### Texts of pipelines -/

/-- The texts of a step, the names of its parameters among them. -/
def Step.texts (step : Step) : List String :=
  step.name :: step.task ::
    (step.condition.toList ++ step.inputs.fields.flatMap fun field => [field.1, field.2])

def Job.texts (job : Job) : List String := job.name :: job.steps.flatMap Step.texts

def Stage.texts (stage : Stage) : List String := stage.name :: stage.jobs.flatMap Job.texts

def Pipeline.texts (pipeline : Pipeline) : List String := pipeline.stages.flatMap Stage.texts

/-- The texts that documents of a CI system take from the settings. -/
def Settings.texts (settings : Settings) : Variant → List String
  | .azureDevOps => [settings.azure.branch]
  | .gitHubActions => [settings.github.workflowName, settings.github.runsOn]
  | .gitLabCi => settings.gitlab.image.toList
  | .jenkins => settings.jenkins.agent.toList
  | .bamboo => [settings.bamboo.projectKey, settings.bamboo.planKey, settings.bamboo.planName]
  | .circleCi => [settings.circleci.image, settings.circleci.workflow]
  | .aws => []

theorem Step.name_mem_texts (step : Step) : step.name ∈ step.texts := List.mem_cons_self ..

theorem Step.task_mem_texts (step : Step) : step.task ∈ step.texts :=
  List.mem_cons_of_mem _ (List.mem_cons_self ..)

theorem Step.condition_mem_texts {step : Step} {condition : String}
    (given : condition ∈ step.condition) : condition ∈ step.texts := by
  simp [texts, Option.mem_def.mp given]

theorem Step.input_mem_texts {step : Step} {field : String × String}
    (mem : field ∈ step.inputs.fields) : field.1 ∈ step.texts ∧ field.2 ∈ step.texts := by
  have inside {text : String} (own : text ∈ [field.1, field.2]) : text ∈ step.texts :=
    List.mem_cons_of_mem _ (List.mem_cons_of_mem _
      (List.mem_append_right _ (List.mem_flatMap.mpr ⟨field, mem, own⟩)))
  exact ⟨inside (by simp), inside (by simp)⟩

theorem Step.command_mem_texts {step : Step} {command : String}
    (found : step.command? = some command) : command ∈ step.texts := by
  unfold command? at found
  split at found
  · exact (input_mem_texts (Fields.mem_of_get?_eq_some found)).2
  · cases found

theorem Job.texts_subset {job : Job} {step : Step} (mem : step ∈ job.steps) :
    step.texts ⊆ job.texts :=
  fun _ inside => List.mem_cons_of_mem _ (List.mem_flatMap.mpr ⟨step, mem, inside⟩)

theorem Stage.texts_subset {stage : Stage} {job : Job} (mem : job ∈ stage.jobs) :
    job.texts ⊆ stage.texts :=
  fun _ inside => List.mem_cons_of_mem _ (List.mem_flatMap.mpr ⟨job, mem, inside⟩)

theorem Stage.step_texts_subset {stage : Stage} {step : Step} (mem : step ∈ stage.steps) :
    step.texts ⊆ stage.texts := by
  obtain ⟨job, own, inside⟩ := List.mem_flatMap.mp mem
  exact List.Subset.trans (Job.texts_subset inside) (texts_subset own)

theorem Pipeline.texts_subset {pipeline : Pipeline} {stage : Stage}
    (mem : stage ∈ pipeline.stages) : stage.texts ⊆ pipeline.texts :=
  fun _ inside => List.mem_flatMap.mpr ⟨stage, mem, inside⟩

/-! ### Steps -/

section Steps

variable {step : Step} (unfenced : ∀ text ∈ step.texts, Unfenced text)

include unfenced

theorem unfenced_condition : ∀ data ∈ step.condition.map Data.text, data.AllTexts Unfenced := by
  intro data mem
  obtain ⟨condition, given, rfl⟩ := Option.map_eq_some_iff.mp mem
  exact .text (unfenced _ (Step.condition_mem_texts given))

theorem unfenced_inputs :
    ∀ field ∈ Fields.mapValues inputValue step.inputs.fields, Data.FieldTexts Unfenced field := by
  intro field written
  obtain ⟨own, mem, rfl⟩ := List.mem_map.mp written
  have inside := Step.input_mem_texts mem
  exact ⟨unfenced _ inside.1, unfenced_inputValue (unfenced _ inside.2)⟩

theorem unfenced_toData? : ∀ data ∈ step.inputs.toData?, data.AllTexts Unfenced := by
  intro data given
  unfold Inputs.toData? at given
  split at given
  · cases given
  · cases given
    exact .record (unfenced_inputs unfenced)

theorem Azure.unfenced_writeStep : (writeStep step).AllTexts Unfenced := by
  have name : Unfenced step.name := unfenced _ step.name_mem_texts
  unfold writeStep
  dsimp only
  split
  · next text found =>
    have command : Unfenced text := unfenced _ (Step.command_mem_texts found)
    exact .recordOf (.given (by decide) (.text command) (.leftOut (by decide) name
      (.cons (by decide) (unfenced_condition unfenced) .nil)))
  · have task : Unfenced step.task := unfenced _ step.task_mem_texts
    exact .recordOf (.given (by decide) (.text task) (.given (by decide) (.text name)
      (.cons (by decide) (unfenced_toData? unfenced)
        (.cons (by decide) (unfenced_condition unfenced) .nil))))

theorem GitHub.unfenced_writeStep : (writeStep step).AllTexts Unfenced := by
  have name : Unfenced step.name := unfenced _ step.name_mem_texts
  unfold writeStep
  dsimp only
  split
  · next text found =>
    have command : Unfenced text := unfenced _ (Step.command_mem_texts found)
    exact .recordOf (.leftOut (by decide) name
      (.cons (by decide) (unfenced_condition unfenced) (.given (by decide) (.text command) .nil)))
  · have task : Unfenced step.task := unfenced _ step.task_mem_texts
    exact .recordOf (.leftOut (by decide) name
      (.cons (by decide) (unfenced_condition unfenced) (.given (by decide) (.text task)
        (.cons (by decide) (unfenced_toData? unfenced) .nil))))

theorem GitLab.unfenced_line : Unfenced (line step) := by
  have name := Payload.unfenced_iff.mp (unfenced _ step.name_mem_texts)
  have task := Payload.unfenced_iff.mp (unfenced _ step.task_mem_texts)
  unfold line
  cases found : step.command? with
  | some command => exact unfenced _ (Step.command_mem_texts found)
  | none =>
    have shape : (s!"# {step.name}: {step.task}").toList =
        ['#', ' '] ++ (step.name.toList ++ ':' :: ([' '] ++ step.task.toList)) := by
      simp [ToString.toString]
    rw [Option.getD_none, Payload.unfenced_iff, shape,
      Text.contains_append_of_foreign (by decide) (by decide),
      Text.contains_append_cons (by decide) (by decide), name,
      Text.contains_append_of_foreign (by decide) (by decide), task]
    rfl

theorem Bamboo.unfenced_writeStep : (writeStep step).AllTexts Unfenced := by
  have name : Unfenced step.name := unfenced _ step.name_mem_texts
  unfold writeStep
  split
  · next text found =>
    have command : Unfenced text := unfenced _ (Step.command_mem_texts found)
    have scripts : (Data.texts [text]).AllTexts Unfenced :=
      .texts (List.forall_mem_singleton.mpr command)
    exact .record (.cons (by decide)
      (.recordOf (.leftOut (by decide) name (.given (by decide) scripts .nil))) .nil)
  · have task : Unfenced step.task := unfenced _ step.task_mem_texts
    exact .record (.cons (by decide)
      (.recordOf (.given (by decide) (.text task) (.given (by decide) (.text name)
        (.cons (by decide) (unfenced_toData? unfenced) .nil)))) .nil)

theorem CircleCi.unfenced_parameters :
    ∀ field ∈ parameters step, Data.FieldTexts Unfenced field := by
  intro field mem
  unfold parameters at mem
  rcases List.mem_append.mp (Fields.mem_of_mem_ofList mem) with named | written
  · split at named
    · cases named
    · obtain rfl := List.mem_singleton.mp named
      exact ⟨(by decide : Unfenced "name"), .text (unfenced _ step.name_mem_texts)⟩
  · exact unfenced_inputs unfenced field written

theorem CircleCi.unfenced_writeStep : (writeStep step).AllTexts Unfenced := by
  have name : Unfenced step.name := unfenced _ step.name_mem_texts
  have task : Unfenced step.task := unfenced _ step.task_mem_texts
  unfold writeStep
  split
  · next text found =>
    have command : Unfenced text := unfenced _ (Step.command_mem_texts found)
    refine .record (.cons (by decide) ?_ .nil)
    split
    · exact .text command
    · exact .record (.cons (by decide) (.text name) (.cons (by decide) (.text command) .nil))
  · split
    · exact .text task
    · exact .record (.cons task (.record (unfenced_parameters unfenced)) .nil)

end Steps

/-! ### Jobs and stages -/

theorem Job.unfenced_steps {job : Job} (unfenced : ∀ text ∈ job.texts, Unfenced text)
    {write : Step → Data}
    (each : ∀ step : Step, (∀ text ∈ step.texts, Unfenced text) → (write step).AllTexts Unfenced) :
    (Data.list (job.steps.map write)).AllTexts Unfenced :=
  .listMap fun step mem => each step fun text inside => unfenced text (texts_subset mem inside)

theorem Stage.unfenced_steps {stage : Stage} (unfenced : ∀ text ∈ stage.texts, Unfenced text)
    {write : Step → Data}
    (each : ∀ step : Step, (∀ text ∈ step.texts, Unfenced text) → (write step).AllTexts Unfenced) :
    (Data.list (stage.steps.map write)).AllTexts Unfenced :=
  .listMap fun step mem => each step fun text inside => unfenced text (step_texts_subset mem inside)

theorem Azure.unfenced_writeJob {name : String} {steps : List Step} (own : Unfenced name)
    (all : (Data.list (steps.map writeStep)).AllTexts Unfenced) :
    (writeJob name steps).AllTexts Unfenced :=
  .record (.cons (by decide) (.text (unfenced_identifier false name))
    (.cons (by decide) (.text own) (.cons (by decide) all .nil)))

theorem Azure.unfenced_writeStage {stage : Stage} (unfenced : ∀ text ∈ stage.texts, Unfenced text) :
    (writeStage stage).AllTexts Unfenced := by
  have jobs : (Data.list (stage.jobs.map fun job => writeJob job.name job.steps)).AllTexts
      Unfenced := by
    refine .listMap fun job mem => ?_
    have own : ∀ text ∈ job.texts, Unfenced text :=
      fun text inside => unfenced text (Stage.texts_subset mem inside)
    exact unfenced_writeJob (own _ (List.mem_cons_self ..))
      (Job.unfenced_steps own fun _ => unfenced_writeStep)
  exact .record (.cons (by decide) (.text (unfenced _ (List.mem_cons_self ..)))
    (.cons (by decide) jobs .nil))

theorem GitHub.unfenced_writeStage {settings : GitHubSettings} {stage : Stage}
    (runner : Unfenced settings.runsOn) (unfenced : ∀ text ∈ stage.texts, Unfenced text) :
    (writeStage settings stage).AllTexts Unfenced := by
  have name : Unfenced (jobName stage) := by
    unfold jobName
    split
    · next job only =>
      have inside : job ∈ stage.jobs := only ▸ List.mem_cons_self ..
      exact unfenced _ (Stage.texts_subset inside (List.mem_cons_self ..))
    · exact unfenced _ (List.mem_cons_self ..)
  exact .record (.cons (by decide) (.text name) (.cons (by decide) (.text runner)
    (.cons (by decide) (Stage.unfenced_steps unfenced fun _ => unfenced_writeStep) .nil)))

theorem GitLab.unfenced_keyBase {name : String} (unfenced : Unfenced name) :
    Unfenced (keyBase name) := by
  have inside : name.toList.dropWhile (· == '.') <:+: name.toList :=
    (List.dropWhile_suffix _).isInfix
  unfold keyBase
  split
  · decide
  · next shape => exact unfenced.of_infix inside

theorem GitLab.unfenced_writeJob {stage : String} {job : Job} (name : Unfenced stage)
    (unfenced : ∀ text ∈ job.texts, Unfenced text) : (writeJob stage job).AllTexts Unfenced := by
  have lines : ∀ text ∈ job.steps.map line, Unfenced text :=
    List.forall_mem_map.mpr fun step mem =>
      unfenced_line fun text inside => unfenced text (Job.texts_subset mem inside)
  exact .record (.cons (by decide) (.text name) (.cons (by decide) (.texts lines) .nil))

theorem Bamboo.unfenced_writeJob {job : Job} (unfenced : ∀ text ∈ job.texts, Unfenced text) :
    (writeJob job).AllTexts Unfenced :=
  .record (.cons (by decide) (Job.unfenced_steps unfenced fun _ => unfenced_writeStep) .nil)

theorem Bamboo.unfenced_writeStages {keys : List String} {stages : List Stage}
    (all : ∀ key ∈ keys, Unfenced key) (names : ∀ name ∈ stages.map Stage.name, Unfenced name) :
    ∀ data ∈ writeStages keys stages, data.AllTexts Unfenced := by
  induction stages generalizing keys with
  | nil => exact fun _ mem => absurd mem List.not_mem_nil
  | cons stage stages ih =>
    obtain ⟨name, names⟩ := List.forall_mem_cons.mp names
    have own : ∀ key ∈ keys.take stage.jobs.length, Unfenced key :=
      fun key mem => all key (List.mem_of_mem_take mem)
    have others : ∀ key ∈ keys.drop stage.jobs.length, Unfenced key :=
      fun key mem => all key (List.mem_of_mem_drop mem)
    have first := Data.AllTexts.record
      (.cons name (.record (.cons (by decide : Unfenced "jobs") (.texts own) .nil)) .nil)
    exact List.forall_mem_cons.mpr ⟨first, ih others names⟩

theorem CircleCi.unfenced_writeStage {settings : CircleCiSettings} {stage : Stage}
    (image : Unfenced settings.image) (unfenced : ∀ text ∈ stage.texts, Unfenced text) :
    (writeStage settings stage).AllTexts Unfenced := by
  have docker : (Data.list [.record [("image", .text settings.image)]]).AllTexts Unfenced :=
    .list (List.forall_mem_singleton.mpr (.record (.cons (by decide) (.text image) .nil)))
  exact .record (.cons (by decide) docker (.cons (by decide)
    (Stage.unfenced_steps unfenced fun _ => unfenced_writeStep) .nil))

/-! ### Documents -/

section Documents

variable {pipeline : Pipeline} (unfenced : ∀ text ∈ pipeline.texts, Unfenced text)

include unfenced

theorem Pipeline.unfenced_stage {stage : Stage} (mem : stage ∈ pipeline.stages) :
    ∀ text ∈ stage.texts, Unfenced text :=
  fun text inside => unfenced text (texts_subset mem inside)

theorem Pipeline.unfenced_stageNames : ∀ name ∈ pipeline.stageNames, Unfenced name :=
  List.forall_mem_map.mpr fun _ mem => unfenced_stage unfenced mem _ (List.mem_cons_self ..)

theorem Azure.unfenced_write {settings : AzureSettings} (branch : Unfenced settings.branch) :
    (write settings pipeline).AllTexts Unfenced := by
  have branches : (Data.texts [settings.branch]).AllTexts Unfenced :=
    .texts (List.forall_mem_singleton.mpr branch)
  have filter : (branchFilter settings.branch).AllTexts Unfenced :=
    .record (.cons (by decide) (.record (.cons (by decide) branches .nil)) .nil)
  refine .record (.cons (by decide) filter (.cons (by decide) filter ?_))
  cases settings.layout with
  | stages =>
    exact .cons (by decide) (.listMap fun stage mem =>
      unfenced_writeStage (Pipeline.unfenced_stage unfenced mem)) .nil
  | jobs =>
    refine .cons (by decide) (.listMap fun stage mem => ?_) .nil
    have own := Pipeline.unfenced_stage unfenced mem
    exact unfenced_writeJob (own _ (List.mem_cons_self ..))
      (Stage.unfenced_steps own fun _ => unfenced_writeStep)

theorem GitHub.unfenced_write {settings : GitHubSettings}
    (workflow : Unfenced settings.workflowName) (runner : Unfenced settings.runsOn) :
    (write settings pipeline).AllTexts Unfenced := by
  have keys : ∀ key ∈ jobKeys pipeline, Unfenced key := fun key handed =>
    unfenced_of_mem_allocateAll
      (List.forall_mem_map.mpr fun name _ => unfenced_identifier true name) handed
  have stages : ∀ data ∈ pipeline.stages.map (writeStage settings), data.AllTexts Unfenced :=
    List.forall_mem_map.mpr fun stage mem =>
      unfenced_writeStage runner (Pipeline.unfenced_stage unfenced mem)
  exact .record (.cons (by decide) (.text workflow) (.cons (by decide) (.texts (by decide))
    (.cons (by decide) (.record (.zip keys stages)) .nil)))

theorem GitLab.unfenced_write {settings : GitLabSettings}
    (image : ∀ image ∈ settings.image, Unfenced image) :
    (write settings pipeline).AllTexts Unfenced := by
  have staged : ∀ entry ∈ stagedJobs pipeline,
      Unfenced entry.1 ∧ ∀ text ∈ entry.2.texts, Unfenced text := by
    intro entry mem
    obtain ⟨stage, own, mem⟩ := List.mem_flatMap.mp mem
    obtain ⟨job, inside, rfl⟩ := List.mem_map.mp mem
    have own := Pipeline.unfenced_stage unfenced own
    exact ⟨own _ (List.mem_cons_self ..), fun text found =>
      own text (Stage.texts_subset inside found)⟩
  have keys : ∀ key ∈ jobKeys pipeline, Unfenced key := by
    refine fun key handed => unfenced_of_mem_allocateAll ?_ handed
    exact List.forall_mem_map.mpr fun entry mem =>
      unfenced_keyBase ((staged entry mem).2 _ (List.mem_cons_self ..))
  have jobs : ∀ entry ∈ stagedJobs pipeline, (writeJob entry.1 entry.2).AllTexts Unfenced :=
    fun entry mem => unfenced_writeJob (staged entry mem).1 (staged entry mem).2
  refine .record (List.forall_mem_append.mpr ⟨List.forall_mem_append.mpr ⟨?_, ?_⟩,
    .zip keys (List.forall_mem_map.mpr jobs)⟩)
  · intro field mem
    obtain ⟨own, given, rfl⟩ := Option.map_eq_some_iff.mp (Option.mem_toList.mp mem)
    exact ⟨(by decide : Unfenced "image"), .text (image own given)⟩
  · exact .cons (by decide) (.texts (Pipeline.unfenced_stageNames unfenced)) .nil

theorem Bamboo.unfenced_write {settings : BambooSettings} (project : Unfenced settings.projectKey)
    (key : Unfenced settings.planKey) (name : Unfenced settings.planName) :
    (write settings pipeline).AllTexts Unfenced := by
  have own : ∀ job ∈ allJobs pipeline, ∀ text ∈ job.texts, Unfenced text := by
    intro job mem text inside
    obtain ⟨stage, listed, mem⟩ := List.mem_flatMap.mp mem
    exact Pipeline.unfenced_stage unfenced listed text (Stage.texts_subset mem inside)
  have keys : ∀ key ∈ jobKeys pipeline, Unfenced key := fun key handed =>
    unfenced_of_mem_allocateAll
      (List.forall_mem_map.mpr fun job mem => own job mem _ (List.mem_cons_self ..)) handed
  have jobs : ∀ data ∈ (allJobs pipeline).map writeJob, data.AllTexts Unfenced :=
    List.forall_mem_map.mpr fun job mem => unfenced_writeJob (own job mem)
  have version : (Data.int 2).AllTexts Unfenced := fun _ mem => absurd mem List.not_mem_nil
  have plan : (Data.record [("project-key", .text settings.projectKey),
      ("key", .text settings.planKey), ("name", .text settings.planName)]).AllTexts Unfenced :=
    .record (.cons (by decide) (.text project) (.cons (by decide) (.text key)
      (.cons (by decide) (.text name) .nil)))
  have stages := unfenced_writeStages keys (Pipeline.unfenced_stageNames unfenced)
  have head := Data.FieldTexts.cons (by decide : Unfenced "version") version
    (.cons (by decide : Unfenced "plan") plan
      (.cons (by decide : Unfenced "stages") (.list stages) .nil))
  exact .record (List.forall_mem_append.mpr ⟨head, .zip keys jobs⟩)

theorem CircleCi.unfenced_write {settings : CircleCiSettings} (image : Unfenced settings.image)
    (workflow : Unfenced settings.workflow) : (write settings pipeline).AllTexts Unfenced := by
  have keys : ∀ key ∈ jobKeys pipeline, Unfenced key := fun key handed =>
    unfenced_of_mem_allocateAll (Pipeline.unfenced_stageNames unfenced) handed
  have stages : ∀ data ∈ pipeline.stages.map (writeStage settings), data.AllTexts Unfenced :=
    List.forall_mem_map.mpr fun stage mem =>
      unfenced_writeStage image (Pipeline.unfenced_stage unfenced mem)
  have version : (Data.float 2.1).AllTexts Unfenced := fun _ mem => absurd mem List.not_mem_nil
  have listed : (Data.record [("jobs", .texts (jobKeys pipeline))]).AllTexts Unfenced :=
    .record (.cons (by decide) (.texts keys) .nil)
  exact .record (.cons (by decide) version (.cons (by decide) (.record (.zip keys stages))
    (.cons (by decide) (.record (.cons workflow listed .nil)) .nil)))

end Documents

end CiTranslate

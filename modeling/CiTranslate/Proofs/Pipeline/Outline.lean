import CiTranslate.Pipeline

/-!
Names of stages, jobs and steps.
-/

namespace CiTranslate

namespace Stage

/-- The name of a stage, and the names of its jobs and their steps. -/
def outline (stage : Stage) : String × List (String × List String) :=
  (stage.name, stage.jobs.map fun job => (job.name, job.steps.map Step.name))

/-- The names of the steps of all jobs. -/
def stepNames (stage : Stage) : List String := stage.steps.map Step.name

/-- The names of the steps are those of job after job. -/
theorem stepNames_eq_flatten (stage : Stage) :
    stage.stepNames = (stage.jobs.map fun job => job.steps.map Step.name).flatten := by
  rw [stepNames, steps, List.map_flatMap, List.flatMap_def]

/-- Jobs have their names from the outline. -/
theorem map_name_jobs (stage : Stage) : stage.jobs.map Job.name = stage.outline.2.map Prod.fst := by
  simp [outline, Function.comp_def]

end Stage

namespace Pipeline

def jobs (pipeline : Pipeline) : List Job := pipeline.stages.flatMap Stage.jobs

theorem outline_eq_map (pipeline : Pipeline) :
    pipeline.outline = pipeline.stages.map Stage.outline := rfl

/-- Pipelines of one outline have jobs of the same names. -/
theorem map_name_jobs_of_outline_eq {pipeline other : Pipeline}
    (same : pipeline.outline = other.outline) :
    pipeline.jobs.map Job.name = other.jobs.map Job.name := by
  have names (each : Pipeline) :
      each.jobs.map Job.name = each.outline.flatMap fun stage => stage.2.map Prod.fst := by
    simp [jobs, outline_eq_map, List.map_flatMap, List.flatMap_map, Stage.map_name_jobs]
  rw [names, names, same]

end Pipeline

end CiTranslate

import CiTranslate.Proofs.Pipeline.Attachment
import CiTranslate.Proofs.Pipeline.Outline

/-!
Pipelines that are built call by call.

A call adds a stage, attaches a job, or retargets the pipeline. What one call does is said by
`getElem?_stages_apply` for a stage that is there, by `attached_or_eq` for a job, and by
`perm_jobs_apply` for all jobs; what a run of calls does follows from them by induction
(`getElem?_stages_run`, `perm_jobs_run`). A stage that is added later than others is looked at
from the call on that adds it, so that no induction of its own is needed for it.
-/

namespace CiTranslate.Pipeline

/-- A call that changes a pipeline. -/
inductive Call where
  | addStage (stage : Stage)
  | attach (name : String) (job : Job)
  | retarget (variant : Variant)
  deriving DecidableEq, Repr

namespace Call

/-- The stage that a call adds. -/
def stage? : Call → Option Stage
  | .addStage stage => some stage
  | _ => none

/-- The job that a call attaches if it can. -/
def job? : Call → Option Job
  | .attach _ job => some job
  | _ => none

/-- The job that a call attaches to the first stage of a name. -/
def jobFor? (name : String) : Call → Option Job
  | .attach other job => if other = name then some job else none
  | _ => none

/-- The CI system that a call names. -/
def variant? : Call → Option Variant
  | .retarget variant => some variant
  | _ => none

/-- The pipeline after a call, and what the call answers. Only attaching a job has an answer. -/
def apply (pipeline : Pipeline) : Call → Pipeline × Option Bool
  | .addStage stage => (pipeline.addStage stage, none)
  | .attach name job =>
    let (pipeline, attached) := pipeline.attach name job
    (pipeline, some attached)
  | .retarget variant => (pipeline.retarget variant, none)

end Call

/-- The pipeline after calls. -/
def run (calls : List Call) (pipeline : Pipeline) : Pipeline :=
  calls.foldl (fun pipeline call => (call.apply pipeline).1) pipeline

/-- What the calls of a run answer. -/
def answers : List Call → Pipeline → List (Option Bool)
  | [], _ => []
  | call :: calls, pipeline => (call.apply pipeline).2 :: answers calls (call.apply pipeline).1

/-- The jobs of the calls that answered that theirs was attached. -/
def acceptedJobs (calls : List Call) (answers : List (Option Bool)) : List Job :=
  (calls.zip answers).flatMap fun (call, answer) =>
    if answer = some true then call.job?.toList else []

/-- A job was attached to the first stage of a name, behind the jobs that were there, and nothing
else was changed. -/
def Attached (name : String) (job : Job) (pipeline changed : Pipeline) : Prop :=
  ∃ earlier stage later, pipeline.stages = earlier ++ stage :: later ∧
    name ∉ earlier.map Stage.name ∧ stage.name = name ∧
    changed = { pipeline with
      stages := earlier ++ { stage with jobs := stage.jobs ++ [job] } :: later }

variable {pipeline changed : Pipeline} {name : String} {job : Job}

/-! ### Attaching a job -/

theorem Attached.ne (attached : Attached name job pipeline changed) : changed ≠ pipeline := by
  obtain ⟨earlier, stage, later, stages, -, -, rfl⟩ := attached
  intro same
  have both := (congrArg Pipeline.stages same).trans stages
  have head := (List.cons.inj (List.append_cancel_left both)).1
  have jobs := congrArg (List.length ∘ Stage.jobs) head
  simp at jobs

/-- The list of stages is either divided at the first stage of the name, or stays as it is. -/
theorem attachTo_cases (name : String) (job : Job) (stages : List Stage) :
    (∃ earlier stage later, stages = earlier ++ stage :: later ∧
      name ∉ earlier.map Stage.name ∧ stage.name = name ∧
      attachTo name job stages =
        (earlier ++ { stage with jobs := stage.jobs ++ [job] } :: later, true)) ∨
    (name ∉ stages.map Stage.name ∧ attachTo name job stages = (stages, false)) := by
  induction stages with
  | nil =>
    right
    exact ⟨List.not_mem_nil, rfl⟩
  | cons first stages ih =>
    rw [attachTo]
    by_cases own : first.name = name
    · left
      exact ⟨[], first, stages, rfl, List.not_mem_nil, own, if_pos own⟩
    · have differ : name ≠ first.name := Ne.symm own
      rw [if_neg own]
      rcases ih with ⟨earlier, stage, later, rfl, new, named, result⟩ | ⟨new, result⟩
      · left
        refine ⟨first :: earlier, stage, later, rfl, ?_, named, by rw [result]; rfl⟩
        simpa using ⟨differ, by simpa using new⟩
      · right
        refine ⟨?_, by rw [result]⟩
        simpa using ⟨differ, by simpa using new⟩

/-- What attaching a job does, and what it answers. -/
theorem attached_or_eq (name : String) (job : Job) (pipeline : Pipeline) :
    (Attached name job pipeline (pipeline.attach name job).1 ∧
      (pipeline.attach name job).2 = true) ∨
    (name ∉ pipeline.stageNames ∧ pipeline.attach name job = (pipeline, false)) := by
  rcases attachTo_cases name job pipeline.stages with
    ⟨earlier, stage, later, stages, new, named, result⟩ | ⟨new, result⟩
  · left
    simp only [attach, result, and_true]
    exact ⟨earlier, stage, later, stages, new, named, rfl⟩
  · right
    refine ⟨new, ?_⟩
    simp only [attach, result]

theorem attach_eq_true_iff :
    (pipeline.attach name job).2 = true ↔
      Attached name job pipeline (pipeline.attach name job).1 := by
  rcases attached_or_eq name job pipeline with ⟨attached, answer⟩ | ⟨new, result⟩
  · exact iff_of_true answer attached
  · rw [result]
    exact iff_of_false Bool.false_ne_true fun attached => attached.ne rfl

theorem attach_eq_false_iff :
    (pipeline.attach name job).2 = false ↔ (pipeline.attach name job).1 = pipeline := by
  rcases attached_or_eq name job pipeline with ⟨attached, answer⟩ | ⟨new, result⟩
  · rw [answer]
    exact iff_of_false Bool.true_eq_false.mp attached.ne
  · rw [result]
    exact iff_of_true rfl rfl

/-! ### One call -/

/-- A call adds its stage behind the others, and keeps all names. -/
theorem stageNames_apply (call : Call) (pipeline : Pipeline) :
    (call.apply pipeline).1.stageNames =
      pipeline.stageNames ++ call.stage?.toList.map Stage.name := by
  cases call with
  | addStage stage => simp [Call.apply, Call.stage?, addStage, stageNames]
  | attach name job =>
    have names : (attachTo name job pipeline.stages).1.map Stage.name = pipeline.stageNames :=
      map_name_attachAll [(name, job)] pipeline.stages
    simp only [Call.apply, Call.stage?, attach, Option.toList_none, List.map_nil, List.append_nil]
    exact names
  | retarget variant => simp [Call.apply, Call.stage?, retarget, stageNames]

/-- A call appends a job to a stage that is there if it names the stage and no earlier stage has
that name. It does nothing else to it. -/
theorem getElem?_stages_apply (call : Call) (pipeline : Pipeline) {i : Nat} {stage : Stage}
    (there : pipeline.stages[i]? = some stage) :
    (call.apply pipeline).1.stages[i]? = some { stage with
      jobs := stage.jobs ++ if stage.name ∈ pipeline.stageNames.take i then [] else
        (call.jobFor? stage.name).toList } := by
  cases call with
  | addStage added =>
    have bound := (List.getElem?_eq_some_iff.mp there).1
    simp [Call.apply, Call.jobFor?, addStage, List.getElem?_append_left bound, there]
  | attach name job =>
    have attached := getElem?_attachAll [(name, job)] pipeline.stages i
    rw [there, List.map_take] at attached
    refine attached.trans ?_
    by_cases own : name = stage.name
    · simp [own, jobsOf, Call.jobFor?, stageNames]
    · simp [own, jobsOf, Call.jobFor?]
  | retarget variant => simp [Call.apply, Call.jobFor?, retarget, there]

theorem variant_apply (call : Call) (pipeline : Pipeline) :
    (call.apply pipeline).1.variant = call.variant?.getD pipeline.variant := by
  cases call <;> rfl

/-- A call loses no job, and adds those of its stage, or its own if it is attached. -/
theorem perm_jobs_apply (call : Call) (pipeline : Pipeline) :
    (call.apply pipeline).1.jobs.Perm
      (pipeline.jobs ++ (call.stage?.toList.flatMap Stage.jobs ++
        if (call.apply pipeline).2 = some true then call.job?.toList else [])) := by
  cases call with
  | addStage stage => simp [Call.apply, Call.stage?, addStage, jobs]
  | attach name job =>
    rcases attached_or_eq name job pipeline with ⟨attached, answer⟩ | ⟨new, result⟩
    · obtain ⟨earlier, stage, later, stages, -, -, result⟩ := attached
      simp only [Call.apply, Call.stage?, Call.job?, result, answer, jobs, stages,
        List.flatMap_append, List.flatMap_cons, List.append_assoc]
      refine List.Perm.append_left _ (List.Perm.append_left _ ?_)
      exact List.perm_append_comm
    · simp [Call.apply, Call.stage?, result]
  | retarget variant => simp [Call.apply, Call.stage?, retarget, jobs]

/-! ### A run of calls -/

@[simp] theorem run_nil (pipeline : Pipeline) : run [] pipeline = pipeline := rfl

theorem run_cons (call : Call) (calls : List Call) (pipeline : Pipeline) :
    run (call :: calls) pipeline = run calls (call.apply pipeline).1 := rfl

theorem run_append (calls more : List Call) (pipeline : Pipeline) :
    run (calls ++ more) pipeline = run more (run calls pipeline) :=
  List.foldl_append

theorem stageNames_run (calls : List Call) (pipeline : Pipeline) :
    (run calls pipeline).stageNames =
      pipeline.stageNames ++ (calls.filterMap Call.stage?).map Stage.name := by
  induction calls generalizing pipeline with
  | nil => simp
  | cons call calls ih =>
    rw [run_cons, ih, stageNames_apply, List.append_assoc, ← List.map_append]
    cases added : call.stage? <;> simp [added]

theorem length_stages_run (calls : List Call) (pipeline : Pipeline) :
    (run calls pipeline).stages.length =
      pipeline.stages.length + (calls.filterMap Call.stage?).length := by
  simpa [stageNames] using congrArg List.length (stageNames_run calls pipeline)

/-- A stage that is there gets the jobs that calls have for its name, unless an earlier stage has
that name. As stages are only added behind it, the earlier stages are the same at every call. -/
theorem getElem?_stages_run (calls : List Call) (pipeline : Pipeline) {i : Nat} {stage : Stage}
    (there : pipeline.stages[i]? = some stage) :
    (run calls pipeline).stages[i]? = some { stage with
      jobs := stage.jobs ++ if stage.name ∈ pipeline.stageNames.take i then [] else
        calls.filterMap (Call.jobFor? stage.name) } := by
  induction calls generalizing pipeline stage with
  | nil => simp [there]
  | cons call calls ih =>
    have bound : i ≤ pipeline.stageNames.length := by
      rw [stageNames, List.length_map]
      exact Nat.le_of_lt (List.getElem?_eq_some_iff.mp there).1
    have earlier : (call.apply pipeline).1.stageNames.take i = pipeline.stageNames.take i := by
      rw [stageNames_apply, List.take_append_of_le_length bound]
    rw [run_cons, ih _ (getElem?_stages_apply call pipeline there), earlier]
    split
    · simp
    · cases own : call.jobFor? stage.name <;> simp [own]

/-- A stage that is added gets the jobs that calls after it have for its name. -/
theorem getElem?_stages_run_addStage (before later : List Call) (stage : Stage)
    (pipeline : Pipeline) :
    let now := run before pipeline
    (run (before ++ .addStage stage :: later) pipeline).stages[now.stages.length]? =
      some { stage with
        jobs := stage.jobs ++ if stage.name ∈ now.stageNames then [] else
          later.filterMap (Call.jobFor? stage.name) } := by
  intro now
  have there : (now.addStage stage).stages[now.stages.length]? = some stage := by
    simp [addStage]
  have earlier : (now.addStage stage).stageNames.take now.stages.length = now.stageNames := by
    simp [addStage, stageNames]
  rw [run_append, run_cons, Call.apply, getElem?_stages_run later _ there, earlier]

theorem variant_run (calls : List Call) (pipeline : Pipeline) :
    (run calls pipeline).variant =
      (calls.filterMap Call.variant?).getLast?.getD pipeline.variant := by
  induction calls generalizing pipeline with
  | nil => rfl
  | cons call calls ih =>
    rw [run_cons, ih, variant_apply]
    cases named : call.variant? <;> simp [named, List.getLast?_cons]

/-! ### Answers -/

theorem answers_append (calls more : List Call) (pipeline : Pipeline) :
    answers (calls ++ more) pipeline =
      answers calls pipeline ++ answers more (run calls pipeline) := by
  induction calls generalizing pipeline with
  | nil => rfl
  | cons call calls ih => rw [List.cons_append, answers, ih, answers, List.cons_append, run_cons]

@[simp] theorem length_answers (calls : List Call) (pipeline : Pipeline) :
    (answers calls pipeline).length = calls.length := by
  induction calls generalizing pipeline with
  | nil => rfl
  | cons call calls ih => rw [answers, List.length_cons, ih, List.length_cons]

/-- A call answers what it does in the pipeline that the calls before it leave. -/
theorem getElem?_answers (before later : List Call) (call : Call) (pipeline : Pipeline) :
    (answers (before ++ call :: later) pipeline)[before.length]? =
      some (call.apply (run before pipeline)).2 := by
  rw [answers_append, List.getElem?_append_right (by simp)]
  simp [answers]

theorem acceptedJobs_cons (call : Call) (calls : List Call) (answer : Option Bool)
    (answers : List (Option Bool)) :
    acceptedJobs (call :: calls) (answer :: answers) =
      (if answer = some true then call.job?.toList else []) ++ acceptedJobs calls answers := rfl

/-- Only calls that have a job answer that it was attached. -/
theorem length_acceptedJobs (calls : List Call) (pipeline : Pipeline) :
    (acceptedJobs calls (answers calls pipeline)).length =
      (answers calls pipeline).count (some true) := by
  induction calls generalizing pipeline with
  | nil => rfl
  | cons call calls ih =>
    have own : (if (call.apply pipeline).2 = some true then call.job?.toList else []).length =
        if (call.apply pipeline).2 = some true then 1 else 0 := by
      cases call with
      | attach name job =>
        split <;> rfl
      | addStage stage => rfl
      | retarget variant => rfl
    rw [answers, acceptedJobs_cons, List.length_append, own, ih, List.count_cons]
    simp only [beq_iff_eq, Nat.add_comm]

/-- A run loses and duplicates no job. -/
theorem perm_jobs_run (calls : List Call) (pipeline : Pipeline) :
    (run calls pipeline).jobs.Perm
      (pipeline.jobs ++ ((calls.filterMap Call.stage?).flatMap Stage.jobs ++
        acceptedJobs calls (answers calls pipeline))) := by
  induction calls generalizing pipeline with
  | nil => simp [acceptedJobs]
  | cons call calls ih =>
    have stages : (call :: calls).filterMap Call.stage? =
        call.stage?.toList ++ calls.filterMap Call.stage? := by
      cases added : call.stage? <;> simp [added]
    rw [run_cons, answers, acceptedJobs_cons, stages, List.flatMap_append]
    refine (ih _).trans (((perm_jobs_apply call pipeline).append_right _).trans ?_)
    rw [List.append_assoc, List.append_assoc, List.append_assoc]
    refine List.Perm.append_left _ (List.Perm.append_left _ ?_)
    exact List.perm_append_comm_assoc ..

/-- **Building a pipeline loses and duplicates nothing.** Stages come behind those that are there,
in the order of their calls. A stage ends with its own jobs, behind which stand those of all calls
after it was added that had its name, in their order, and none of them if an earlier stage has the
name. A call answers that its job was attached exactly when it was, to the first stage of its name,
and otherwise leaves the pipeline as it is. So the jobs are those of the stages, and one more for
each call that was answered so. Only retargeting changes the variant, and it changes nothing
else. -/
theorem run_loses_nothing (pipeline : Pipeline) (calls : List Call) :
    let final := run calls pipeline
    let added := calls.filterMap Call.stage?
    final.stageNames = pipeline.stageNames ++ added.map Stage.name ∧
      (∀ (i : Nat) (stage : Stage), pipeline.stages[i]? = some stage →
        final.stages[i]? = some
          { name := stage.name
            jobs := stage.jobs ++ if stage.name ∈ pipeline.stageNames.take i then [] else
              calls.filterMap (Call.jobFor? stage.name) }) ∧
      (∀ before stage later, calls = before ++ .addStage stage :: later →
        final.stages[pipeline.stages.length + (before.filterMap Call.stage?).length]? = some
          { name := stage.name
            jobs := stage.jobs ++ if stage.name ∈ (run before pipeline).stageNames then [] else
              later.filterMap (Call.jobFor? stage.name) }) ∧
      (∀ before name job later, calls = before ++ .attach name job :: later →
        let now := run before pipeline
        let next := run (before ++ [.attach name job]) pipeline
        ∃ attached, (answers calls pipeline)[before.length]? = some (some attached) ∧
          (attached = true ↔ Attached name job now next) ∧ (attached = false ↔ next = now)) ∧
      final.jobs.Perm (pipeline.jobs ++ (added.flatMap Stage.jobs ++
        acceptedJobs calls (answers calls pipeline))) ∧
      final.jobs.length = pipeline.jobs.length + (added.flatMap Stage.jobs).length +
        (answers calls pipeline).count (some true) ∧
      (∀ before variant later, calls = before ++ .retarget variant :: later →
        run (before ++ [.retarget variant]) pipeline = { run before pipeline with variant }) ∧
      final.variant = (calls.filterMap Call.variant?).getLast?.getD pipeline.variant := by
  intro final added
  have perm := perm_jobs_run calls pipeline
  refine ⟨stageNames_run calls pipeline, ?_, ?_, ?_, perm, ?_, ?_, variant_run calls pipeline⟩
  · intro i stage there
    exact getElem?_stages_run calls pipeline there
  · rintro before stage later rfl
    rw [← length_stages_run]
    exact getElem?_stages_run_addStage before later stage pipeline
  · rintro before name job later rfl now next
    have last : next = (now.attach name job).1 := run_append before [.attach name job] pipeline
    refine ⟨(now.attach name job).2, getElem?_answers before later _ pipeline, ?_, ?_⟩
    · rw [last]
      exact attach_eq_true_iff
    · rw [last]
      exact attach_eq_false_iff
  · rw [perm.length_eq, List.length_append, List.length_append, length_acceptedJobs, Nat.add_assoc]
  · rintro before variant later rfl
    exact run_append before [.retarget variant] pipeline

/-- A pipeline with one stage. -/
def lintOnly : Pipeline where
  variant := .jenkins
  stages := [{ name := "lint", jobs := [{ name := "style" }] }]

/-- Calls that give a name to two stages, and a job to a stage before it is added. -/
def deployTwice : List Call :=
  [.attach "deploy" { name := "early" }, .addStage { name := "deploy" },
    .attach "deploy" { name := "first" }, .addStage { name := "deploy" }, .retarget .bamboo,
    .attach "deploy" { name := "second" }, .attach "lint" { name := "types" }]

/-- The job that comes too early is dropped, and the second stage of the name gets none. -/
theorem run_loses_nothing_deployTwice :
    lintOnly.stages[0]? = some { name := "lint", jobs := [{ name := "style" }] } ∧
      deployTwice = deployTwice.take 1 ++ .addStage { name := "deploy" } :: deployTwice.drop 2 ∧
      deployTwice = deployTwice.take 3 ++ .addStage { name := "deploy" } :: deployTwice.drop 4 ∧
      (run deployTwice lintOnly).stages[0]? =
        some { name := "lint", jobs := [{ name := "style" }, { name := "types" }] } ∧
      (run deployTwice lintOnly).stages[1]? =
        some { name := "deploy", jobs := [{ name := "first" }, { name := "second" }] } ∧
      (run deployTwice lintOnly).stages[2]? = some { name := "deploy" } ∧
      (run deployTwice lintOnly).jobs.length = 4 ∧
      (run deployTwice lintOnly).variant = .bamboo := by
  obtain ⟨-, initial, added, -, -, total, -, variant⟩ := run_loses_nothing lintOnly deployTwice
  refine ⟨rfl, rfl, rfl, ?_, ?_, ?_, ?_, ?_⟩
  · exact (initial 0 _ rfl).trans (by decide)
  · exact (added (deployTwice.take 1) _ _ rfl).trans (by decide)
  · exact (added (deployTwice.take 3) _ _ rfl).trans (by decide)
  · exact total.trans (by decide)
  · exact variant.trans (by decide)

end CiTranslate.Pipeline

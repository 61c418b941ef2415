import CiTranslate.Pipeline
import Mathlib.Data.List.Perm.Subperm

/-!
Jobs that are attached one after the other.

A stage is given all jobs of its name, in their order, unless an earlier stage has that name
(`getElem?_attachAll`). No job is lost where all have a stage (`perm_attachAll`), and jobs
that stand in the first stages of their names already are put back where they stood
(`attachAll_stagedJobs`).
-/

namespace CiTranslate.Pipeline

variable {β : Type u}

/-- Attaches jobs in order, each to the first stage of the name that stands beside it. -/
def attachAll (jobs : List (String × Job)) (stages : List Stage) : List Stage :=
  jobs.foldl (fun stages named => (attachTo named.1 named.2 stages).1) stages

/-- The jobs that stand beside a name. -/
def jobsOf (name : String) (jobs : List (String × Job)) : List Job :=
  (jobs.filter (·.1 = name)).map Prod.snd

/-- The jobs that stand beside other names. -/
def jobsBeside (name : String) (jobs : List (String × Job)) : List (String × Job) :=
  jobs.filter (·.1 ≠ name)

/-- The jobs of all stages, each beside the name of its stage. -/
def stagedJobs (stages : List Stage) : List (String × Job) :=
  stages.flatMap fun stage => stage.jobs.map fun job => (stage.name, job)

/-- Stages of given names without jobs. -/
def emptyStages (names : List String) : List Stage := names.map fun name => { name }

@[simp] theorem map_name_emptyStages (names : List String) :
    (emptyStages names).map Stage.name = names := by
  simp [emptyStages, Function.comp_def]

@[simp] theorem flatMap_jobs_emptyStages (names : List String) :
    (emptyStages names).flatMap Stage.jobs = [] := by
  simp [emptyStages, List.flatMap_map]

/-! ### Jobs by the names beside them -/

theorem jobsOf_cons_self (name : String) (job : Job) (jobs : List (String × Job)) :
    jobsOf name ((name, job) :: jobs) = job :: jobsOf name jobs := by
  simp [jobsOf]

theorem jobsOf_cons_of_ne {name other : String} (differ : other ≠ name) (job : Job)
    (jobs : List (String × Job)) : jobsOf name ((other, job) :: jobs) = jobsOf name jobs := by
  simp [jobsOf, differ]

theorem jobsOf_append (name : String) (jobs more : List (String × Job)) :
    jobsOf name (jobs ++ more) = jobsOf name jobs ++ jobsOf name more := by
  simp [jobsOf]

/-- The jobs beside another name are not touched by leaving those of one name out. -/
theorem jobsOf_jobsBeside {name other : String} (differ : other ≠ name)
    (jobs : List (String × Job)) : jobsOf other (jobsBeside name jobs) = jobsOf other jobs := by
  rw [jobsOf, jobsBeside, List.filter_filter, jobsOf]
  refine congrArg (List.map Prod.snd) (List.filter_congr fun named _ => ?_)
  by_cases own : named.1 = other
  · simp [own, differ]
  · simp [own]

theorem jobsOf_jobsBeside_self (name : String) (jobs : List (String × Job)) :
    jobsOf name (jobsBeside name jobs) = [] := by
  rw [jobsOf, jobsBeside, List.filter_filter]
  simp

/-- The jobs of a name and those of other names are all jobs. -/
theorem perm_jobsOf_jobsBeside (name : String) (jobs : List (String × Job)) :
    (jobsOf name jobs ++ (jobsBeside name jobs).map Prod.snd).Perm (jobs.map Prod.snd) := by
  have both := List.filter_append_perm (fun named : String × Job => named.1 = name) jobs
  rw [jobsOf, jobsBeside, ← List.map_append]
  simpa using both.map Prod.snd

/-! ### One job -/

theorem attachTo_cons_self (stage : Stage) (job : Job) (stages : List Stage) :
    (attachTo stage.name job (stage :: stages)).1 =
      { stage with jobs := stage.jobs ++ [job] } :: stages := by
  rw [attachTo, if_pos rfl]

theorem attachTo_cons_of_ne {name : String} {stage : Stage} (differ : stage.name ≠ name)
    (job : Job) (stages : List Stage) :
    (attachTo name job (stage :: stages)).1 = stage :: (attachTo name job stages).1 := by
  rw [attachTo, if_neg differ]

/-! ### A run of jobs -/

@[simp] theorem attachAll_nil (jobs : List (String × Job)) : attachAll jobs [] = [] := by
  induction jobs with
  | nil => rfl
  | cons named jobs ih => exact ih

/-- The first stage takes all jobs of its name, and leaves the others to the stages after it. -/
theorem attachAll_cons (jobs : List (String × Job)) (stage : Stage) (stages : List Stage) :
    attachAll jobs (stage :: stages) =
      { stage with jobs := stage.jobs ++ jobsOf stage.name jobs } ::
        attachAll (jobsBeside stage.name jobs) stages := by
  induction jobs generalizing stage stages with
  | nil => simp [attachAll, jobsOf, jobsBeside]
  | cons named jobs ih =>
    obtain ⟨name, job⟩ := named
    rw [attachAll, List.foldl_cons, ← attachAll]
    by_cases own : name = stage.name
    · subst own
      rw [attachTo_cons_self, ih, jobsOf_cons_self]
      simp [jobsBeside]
    · rw [attachTo_cons_of_ne (Ne.symm own), ih, jobsOf_cons_of_ne own]
      simp [jobsBeside, own, attachAll]

/-- Every stage keeps its place and its name. It is given the jobs of its name unless it has an
earlier namesake. -/
theorem getElem?_attachAll (jobs : List (String × Job)) (stages : List Stage) (i : Nat) :
    (attachAll jobs stages)[i]? = stages[i]?.map fun stage =>
      { stage with
        jobs := stage.jobs ++
          if stage.name ∈ (stages.take i).map Stage.name then [] else jobsOf stage.name jobs } := by
  induction stages generalizing jobs i with
  | nil => simp
  | cons first stages ih =>
    rw [attachAll_cons]
    cases i with
    | zero => simp
    | succ i =>
      rw [List.getElem?_cons_succ, ih, List.getElem?_cons_succ]
      refine congrArg (fun f => Option.map f _) (funext fun stage => ?_)
      by_cases own : stage.name = first.name
      · simp [own, jobsOf_jobsBeside_self]
      · simp [own, jobsOf_jobsBeside own]

@[simp] theorem map_name_attachAll (jobs : List (String × Job)) (stages : List Stage) :
    (attachAll jobs stages).map Stage.name = stages.map Stage.name := by
  induction stages generalizing jobs with
  | nil => simp
  | cons stage stages ih => rw [attachAll_cons, List.map_cons, ih, List.map_cons]

/-- Jobs that all have a stage are all attached, and each once. -/
theorem perm_attachAll {jobs : List (String × Job)} {stages : List Stage}
    (known : ∀ named ∈ jobs, named.1 ∈ stages.map Stage.name) :
    ((attachAll jobs stages).flatMap Stage.jobs).Perm
      (stages.flatMap Stage.jobs ++ jobs.map Prod.snd) := by
  induction stages generalizing jobs with
  | nil =>
    have none : jobs = [] :=
      List.eq_nil_iff_forall_not_mem.mpr fun named mem => nomatch known named mem
    simp [none]
  | cons stage stages ih =>
    have later : ∀ named ∈ jobsBeside stage.name jobs, named.1 ∈ stages.map Stage.name := by
      intro named mem
      obtain ⟨mem, differ⟩ := List.mem_filter.mp mem
      exact (List.mem_cons.mp (known named mem)).resolve_left (by simpa using differ)
    rw [attachAll_cons, List.flatMap_cons, List.flatMap_cons, List.append_assoc, List.append_assoc]
    refine List.Perm.append_left _ ?_
    have rest := (ih later).append_left (jobsOf stage.name jobs)
    refine rest.trans (List.perm_append_comm_assoc .. |>.trans ?_)
    exact (perm_jobsOf_jobsBeside stage.name jobs).append_left _

/-- Jobs without a stage are left out. -/
theorem attachAll_filter_known (jobs : List (String × Job)) (stages : List Stage) :
    attachAll (jobs.filter (·.1 ∈ stages.map Stage.name)) stages = attachAll jobs stages := by
  apply List.ext_getElem?
  intro i
  rw [getElem?_attachAll, getElem?_attachAll]
  apply Option.map_congr
  intro stage there
  have known : stage.name ∈ stages.map Stage.name :=
    List.mem_map.mpr ⟨stage, List.mem_of_getElem? there, rfl⟩
  have own : jobsOf stage.name (jobs.filter (·.1 ∈ stages.map Stage.name)) =
      jobsOf stage.name jobs := by
    rw [jobsOf, List.filter_filter, jobsOf]
    refine congrArg (List.map Prod.snd) (List.filter_congr fun named _ => ?_)
    by_cases same : named.1 = stage.name
    · simp only [same, known, decide_true, Bool.and_self]
    · simp only [same, decide_false, Bool.false_and]
  rw [own]

/-- All jobs that have a stage are attached, and each once. -/
theorem perm_attachAll_known (jobs : List (String × Job)) (stages : List Stage) :
    ((attachAll jobs stages).flatMap Stage.jobs).Perm
      (stages.flatMap Stage.jobs ++
        (jobs.filter (·.1 ∈ stages.map Stage.name)).map Prod.snd) := by
  rw [← attachAll_filter_known]
  apply perm_attachAll
  intro named mem
  exact of_decide_eq_true (List.mem_filter.mp mem).2

/-- No job is attached twice, and none that is not given. -/
theorem subperm_attachAll (jobs : List (String × Job)) (stages : List Stage) :
    ((attachAll jobs stages).flatMap Stage.jobs).Subperm
      (stages.flatMap Stage.jobs ++ jobs.map Prod.snd) := by
  induction stages generalizing jobs with
  | nil => simp
  | cons stage stages ih =>
    rw [attachAll_cons, List.flatMap_cons, List.flatMap_cons, List.append_assoc, List.append_assoc]
    refine (List.subperm_append_left _).mpr ?_
    have rest := (List.subperm_append_left (jobsOf stage.name jobs)).mpr
      (ih (jobsBeside stage.name jobs))
    refine rest.trans (List.perm_append_comm_assoc .. |>.trans ?_).subperm
    exact (perm_jobsOf_jobsBeside stage.name jobs).append_left _

/-! ### What is known of jobs -/

theorem map_jobsOf (name : String) (f : Job → β) (jobs : List (String × Job)) :
    (jobsOf name jobs).map f =
      ((jobs.map fun named => (named.1, f named.2)).filter (·.1 = name)).map Prod.snd := by
  simp [jobsOf, List.filter_map, Function.comp_def]

theorem map_jobsBeside (name : String) (f : Job → β) (jobs : List (String × Job)) :
    (jobsBeside name jobs).map (fun named => (named.1, f named.2)) =
      (jobs.map fun named => (named.1, f named.2)).filter (·.1 ≠ name) := by
  simp [jobsBeside, List.filter_map, Function.comp_def]

/-- Jobs of which the same is known are attached to the same stages. -/
theorem map_jobs_attachAll_congr (f : Job → β) {jobs others : List (String × Job)}
    (same : jobs.map (fun named => (named.1, f named.2)) =
      others.map (fun named => (named.1, f named.2))) (stages : List Stage) :
    (attachAll jobs stages).map (fun stage => stage.jobs.map f) =
      (attachAll others stages).map (fun stage => stage.jobs.map f) := by
  induction stages generalizing jobs others with
  | nil => simp
  | cons stage stages ih =>
    have own : (jobsOf stage.name jobs).map f = (jobsOf stage.name others).map f := by
      rw [map_jobsOf, same, map_jobsOf]
    have beside : (jobsBeside stage.name jobs).map (fun named => (named.1, f named.2)) =
        (jobsBeside stage.name others).map (fun named => (named.1, f named.2)) := by
      rw [map_jobsBeside, same, map_jobsBeside]
    rw [attachAll_cons, attachAll_cons, List.map_cons, List.map_cons, ih beside]
    simp only [List.map_append, own]

/-! ### Jobs in the first stages of their names -/

/-- Stages of which all jobs stand in the first stage of its name. -/
def Grouped (stages : List Stage) : Prop :=
  stages.Pairwise fun earlier later => earlier.name = later.name → later.jobs = []

theorem Grouped.of_nodup {stages : List Stage} (distinct : (stages.map Stage.name).Nodup) :
    Grouped stages :=
  (List.pairwise_map.mp distinct).imp fun differ same => absurd same differ

/-- Attaching jobs to empty stages groups them. -/
theorem grouped_attachAll (jobs : List (String × Job)) (names : List String) :
    Grouped (attachAll jobs (emptyStages names)) := by
  refine List.pairwise_iff_getElem.mpr fun i j hi hj less same => ?_
  have first := List.getElem?_eq_getElem hi
  have second := List.getElem?_eq_getElem hj
  rw [getElem?_attachAll] at first second
  obtain ⟨earlier, hearlier, first⟩ := Option.map_eq_some_iff.mp first
  obtain ⟨later, hlater, second⟩ := Option.map_eq_some_iff.mp second
  rw [← first, ← second] at same
  have empty : later.jobs = [] := by
    obtain ⟨name, -, rfl⟩ := List.mem_map.mp (List.mem_of_getElem? hlater)
    rfl
  have taken : later.name ∈ ((emptyStages names).take j).map Stage.name := by
    refine List.mem_map.mpr ⟨earlier, List.mem_of_getElem? (i := i) ?_, same⟩
    rw [List.getElem?_take_of_lt less, hearlier]
  rw [← second]
  simp only [empty, if_pos taken, List.append_nil]

theorem stagedJobs_cons (stage : Stage) (stages : List Stage) :
    stagedJobs (stage :: stages) =
      stage.jobs.map (fun job => (stage.name, job)) ++ stagedJobs stages := rfl

theorem mem_stagedJobs {stages : List Stage} {named : String × Job} :
    named ∈ stagedJobs stages ↔ ∃ stage ∈ stages, named.1 = stage.name ∧ named.2 ∈ stage.jobs := by
  constructor
  · intro mem
    obtain ⟨stage, hstage, mem⟩ := List.mem_flatMap.mp mem
    obtain ⟨job, hjob, rfl⟩ := List.mem_map.mp mem
    exact ⟨stage, hstage, rfl, hjob⟩
  · rintro ⟨stage, hstage, name, hjob⟩
    refine List.mem_flatMap.mpr ⟨stage, hstage, List.mem_map.mpr ⟨named.2, hjob, ?_⟩⟩
    rw [← name]

theorem map_snd_stagedJobs (stages : List Stage) :
    (stagedJobs stages).map Prod.snd = stages.flatMap Stage.jobs := by
  simp [stagedJobs, List.map_flatMap, Function.comp_def]

/-- Jobs that are grouped are put back where they stood. -/
theorem attachAll_stagedJobs {stages : List Stage} (grouped : Grouped stages) :
    attachAll (stagedJobs stages) (emptyStages (stages.map Stage.name)) = stages := by
  induction stages with
  | nil => rfl
  | cons stage stages ih =>
    obtain ⟨first, grouped⟩ := List.pairwise_cons.mp grouped
    have others : ∀ named ∈ stagedJobs stages, named.1 ≠ stage.name := by
      intro named mem same
      obtain ⟨later, hlater, name, hjob⟩ := mem_stagedJobs.mp mem
      rw [first later hlater (same.symm.trans name)] at hjob
      cases hjob
    have own : jobsOf stage.name (stagedJobs (stage :: stages)) = stage.jobs := by
      have none : jobsOf stage.name (stagedJobs stages) = [] := by
        simpa [jobsOf] using others
      rw [stagedJobs_cons, jobsOf_append, none]
      simp [jobsOf, List.filter_map, Function.comp_def]
    have rest : jobsBeside stage.name (stagedJobs (stage :: stages)) = stagedJobs stages := by
      have all : jobsBeside stage.name (stagedJobs stages) = stagedJobs stages := by
        simpa [jobsBeside] using others
      rw [stagedJobs_cons, jobsBeside, List.filter_append, ← jobsBeside, ← jobsBeside, all]
      simp [jobsBeside, List.filter_map, Function.comp_def]
    rw [List.map_cons, emptyStages, List.map_cons, ← emptyStages, attachAll_cons, own, rest,
      ih grouped]
    rfl

end CiTranslate.Pipeline

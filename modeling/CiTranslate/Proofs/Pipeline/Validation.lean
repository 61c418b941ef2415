import CiTranslate.Pipeline.Issue
import Mathlib.Data.List.Nodup

/-!
The validator tells every fault of a pipeline, and nothing else.

`Pipeline.Faulty` says what is wrong at which site, without a word on how it is found. Issues
report faults (`ReportOf`) if there is one for each of them, in the order of the sites. Reports are
put together as the parts of a pipeline are: one behind the other (`ReportOf.append`), and item
after item (`reportOf_flatten`), so that each level of the validator is one use of these two.
-/

namespace CiTranslate

/-! ### Sites -/

/-- A site at which something can be wrong. Stages, jobs and steps are counted from zero. -/
inductive Site where
  | pipeline
  | stageName (stage : Nat)
  | stage (stage : Nat)
  | jobName (stage job : Nat)
  | task (stage job step : Nat)
  deriving DecidableEq, Repr

namespace Site

/-- The way to a site from the top of the document. In a stage, its name comes first, then the
stage itself, and then its jobs. -/
def path : Site → List Nat
  | pipeline => []
  | stageName i => [i, 0]
  | stage i => [i, 1]
  | jobName i j => [i, j + 2]
  | task i j k => [i, j + 2, k]

/-- The order of the document. -/
instance : LT Site := ⟨fun site other => site.path < other.path⟩

theorem lt_iff {site other : Site} : site < other ↔ site.path < other.path := Iff.rfl

/-- Sites of different stages come in the order of the stages. -/
theorem lt_of_stage_lt {site other : Site} {i m : Nat} {rest further : List Nat}
    (first : site.path = i :: rest) (second : other.path = m :: further) (less : i < m) :
    site < other := by
  rw [lt_iff, first, second, List.cons_lt_cons_iff]
  exact .inl less

/-- Sites of different parts of a stage come in the order of the parts. -/
theorem lt_of_part_lt {site other : Site} {i n m : Nat} {rest further : List Nat}
    (first : site.path = i :: n :: rest) (second : other.path = i :: m :: further)
    (less : n < m) : site < other := by
  rw [lt_iff, first, second, List.cons_lt_cons_iff, List.cons_lt_cons_iff]
  exact .inr ⟨rfl, .inl less⟩

end Site

/-! ### Reports -/

/-- Issues that tell all faults of a relation, each once, in the order of their sites. -/
def ReportOf (faulty : Site → Issue → Prop) (issues : List Issue) : Prop :=
  ∃ findings : List (Site × Issue),
    findings.Pairwise (fun earlier later => earlier.1 < later.1) ∧
      (∀ site issue, (site, issue) ∈ findings ↔ faulty site issue) ∧
      findings.map Prod.snd = issues

/-- All sites of the first faults come before all sites of the others. -/
def Precedes (faulty further : Site → Issue → Prop) : Prop :=
  ∀ {site issue other told}, faulty site issue → further other told → site < other

section Reports

variable {α : Type} {faulty further : Site → Issue → Prop} {issues more : List Issue}

theorem ReportOf.congr (report : ReportOf faulty issues)
    (same : ∀ site issue, faulty site issue ↔ further site issue) :
    ReportOf further issues := by
  obtain ⟨findings, ordered, all, told⟩ := report
  exact ⟨findings, ordered, fun site issue => (all site issue).trans (same site issue), told⟩

/-- There is nothing to tell where there is no fault. -/
theorem ReportOf.eq_nil_iff (report : ReportOf faulty issues) :
    issues = [] ↔ ∀ site issue, ¬faulty site issue := by
  obtain ⟨findings, -, all, rfl⟩ := report
  rw [List.map_eq_nil_iff, List.eq_nil_iff_forall_not_mem]
  constructor
  · intro none site issue fault
    exact none _ ((all site issue).mpr fault)
  · intro none finding mem
    exact none _ _ ((all _ _).mp mem)

theorem reportOf_nil (none : ∀ site issue, ¬faulty site issue) : ReportOf faulty [] :=
  ⟨[], List.Pairwise.nil, fun site issue => iff_of_false List.not_mem_nil (none site issue), rfl⟩

/-- An issue under a condition reports the fault of one site. -/
theorem reportOf_issueIf (condition : Bool) (site : Site) (issue : Issue) :
    ReportOf (fun other told => condition = true ∧ other = site ∧ told = issue)
      (issueIf condition issue) := by
  cases condition with
  | false => exact reportOf_nil (by simp)
  | true => exact ⟨[(site, issue)], List.pairwise_singleton .., by simp, rfl⟩

/-- The faults of two parts are reported one part behind the other. -/
theorem ReportOf.append (first : ReportOf faulty issues) (second : ReportOf further more)
    (ordered : Precedes faulty further) :
    ReportOf (fun site issue => faulty site issue ∨ further site issue) (issues ++ more) := by
  obtain ⟨findings, sorted, all, rfl⟩ := first
  obtain ⟨others, sortedOthers, allOthers, rfl⟩ := second
  refine ⟨findings ++ others, ?_, ?_, List.map_append⟩
  · refine List.pairwise_append.mpr ⟨sorted, sortedOthers, ?_⟩
    intro finding mem other memOther
    exact ordered ((all _ _).mp mem) ((allOthers _ _).mp memOther)
  · intro site issue
    rw [List.mem_append, all, allOthers]

/-- The faults of items are reported item after item. -/
theorem reportOf_flatten {items : List α} {faulty : Nat → α → Site → Issue → Prop}
    {issues : Nat → α → List Issue}
    (each : ∀ k item, items[k]? = some item → ReportOf (faulty k item) (issues k item))
    (ordered : ∀ k m item later, k < m → Precedes (faulty k item) (faulty m later)) :
    ReportOf (fun site issue => ∃ k item, items[k]? = some item ∧ faulty k item site issue)
      (items.mapIdx issues).flatten := by
  induction items generalizing faulty issues with
  | nil =>
    apply reportOf_nil
    rintro site issue ⟨k, item, there, -⟩
    cases there
  | cons item items ih =>
    have rest : ReportOf
        (fun site issue => ∃ k item, items[k]? = some item ∧ faulty (k + 1) item site issue)
        (items.mapIdx fun k => issues (k + 1)).flatten :=
      ih (fun k item there => each (k + 1) item there)
        (fun k m item later less => ordered _ _ item later (Nat.succ_lt_succ less))
    rw [List.mapIdx_cons, List.flatten_cons]
    refine ((each 0 item rfl).append rest ?_).congr ?_
    · rintro site issue other told own ⟨k, later, -, fault⟩
      exact ordered _ _ _ _ (Nat.succ_pos k) own fault
    · intro site issue
      constructor
      · rintro (own | ⟨k, later, there, fault⟩)
        · exact ⟨0, item, rfl, own⟩
        · exact ⟨k + 1, later, there, fault⟩
      · rintro ⟨k, later, there, fault⟩
        cases k with
        | zero =>
          cases there
          exact .inl fault
        | succ k => exact .inr ⟨k, later, there, fault⟩

/-- The faults of items that do not depend on where the items stand. -/
theorem reportOf_flatMap {items : List α} {faulty : Nat → α → Site → Issue → Prop}
    {issues : α → List Issue} (each : ∀ k item, ReportOf (faulty k item) (issues item))
    (ordered : ∀ k m item later, k < m → Precedes (faulty k item) (faulty m later)) :
    ReportOf (fun site issue => ∃ k item, items[k]? = some item ∧ faulty k item site issue)
      (items.flatMap issues) := by
  have same : items.mapIdx (fun _ => issues) = items.map issues :=
    List.ext_getElem (by simp) (by simp)
  rw [List.flatMap_def, ← same]
  exact reportOf_flatten (fun k item _ => each k item) ordered

end Reports

/-! ### Faults -/

/-- A name of blanks only, the empty one included. -/
def Blank (name : String) : Prop := ∀ c ∈ name.toList, Text.isBlank c = true

theorem isBlankName_iff {name : String} : isBlankName name = true ↔ Blank name :=
  List.all_eq_true

namespace Pipeline

/-- What is wrong at a site of a pipeline. -/
inductive Faulty (pipeline : Pipeline) : Site → Issue → Prop where
  | noStages : pipeline.stages = [] → pipeline.Faulty .pipeline .noStages
  | blankStage {i : Nat} {stage : Stage} : pipeline.stages[i]? = some stage →
      Blank stage.name → pipeline.Faulty (.stageName i) (.blankStage i)
  | repeatedStage {i : Nat} {stage : Stage} : pipeline.stages[i]? = some stage →
      ¬Blank stage.name → stage.name ∈ pipeline.stageNames.take i →
      pipeline.Faulty (.stageName i) (.repeatedStage stage.name)
  | emptyStage {i : Nat} {stage : Stage} : pipeline.stages[i]? = some stage →
      stage.jobs = [] → pipeline.Faulty (.stage i) (.emptyStage stage.name)
  | blankJob {i j : Nat} {stage : Stage} {job : Job} : pipeline.stages[i]? = some stage →
      stage.jobs[j]? = some job → Blank job.name →
      pipeline.Faulty (.jobName i j) (.blankJob stage.name job.name)
  | blankTask {i j k : Nat} {stage : Stage} {job : Job} {step : Step} :
      pipeline.stages[i]? = some stage → stage.jobs[j]? = some job → job.steps[k]? = some step →
      Blank step.task → pipeline.Faulty (.task i j k) (.blankTask job.name step.name)

/-- Pipelines without any fault. -/
structure Sound (pipeline : Pipeline) : Prop where
  staged : pipeline.stages ≠ []
  named : ∀ stage ∈ pipeline.stages, ¬Blank stage.name
  distinct : pipeline.stageNames.Nodup
  filled : ∀ stage ∈ pipeline.stages, stage.jobs ≠ []
  jobsNamed : ∀ stage ∈ pipeline.stages, ∀ job ∈ stage.jobs, ¬Blank job.name
  tasked : ∀ step ∈ pipeline.steps, ¬Blank step.task

end Pipeline

/-! ### Parts of a pipeline -/

/-- The fault of a step that stands in a job of a stage. -/
def Step.FaultAt (i j k : Nat) (job : String) (step : Step) (site : Site) (issue : Issue) :
    Prop :=
  isBlankName step.task = true ∧ site = .task i j k ∧ issue = .blankTask job step.name

/-- The faults of a job that stands in a stage. -/
def Job.FaultAt (i j : Nat) (stage : String) (job : Job) (site : Site) (issue : Issue) : Prop :=
  (isBlankName job.name = true ∧ site = .jobName i j ∧ issue = .blankJob stage job.name) ∨
    ∃ (k : Nat) (step : Step), job.steps[k]? = some step ∧ step.FaultAt i j k job.name site issue

/-- The fault of the name of a stage behind stages of other names. -/
def Stage.NameFaultAt (earlier : List String) (i : Nat) (stage : Stage) (site : Site)
    (issue : Issue) : Prop :=
  (isBlankName stage.name = true ∧ site = .stageName i ∧ issue = .blankStage i) ∨
    ((!isBlankName stage.name && earlier.contains stage.name) = true ∧ site = .stageName i ∧
      issue = .repeatedStage stage.name)

/-- The faults of a stage behind stages of other names. -/
def Stage.FaultAt (earlier : List String) (i : Nat) (stage : Stage) (site : Site)
    (issue : Issue) : Prop :=
  (stage.NameFaultAt earlier i site issue ∨
    (stage.jobs.isEmpty = true ∧ site = .stage i ∧ issue = .emptyStage stage.name)) ∨
    ∃ (j : Nat) (job : Job), stage.jobs[j]? = some job ∧ job.FaultAt i j stage.name site issue

theorem Step.FaultAt.path_eq {i j k : Nat} {job : String} {step : Step} {site : Site}
    {issue : Issue} (fault : step.FaultAt i j k job site issue) : site.path = [i, j + 2, k] := by
  rw [fault.2.1, Site.path]

theorem Job.FaultAt.exists_path {i j : Nat} {stage : String} {job : Job} {site : Site}
    {issue : Issue} (fault : job.FaultAt i j stage site issue) :
    ∃ rest, site.path = i :: (j + 2) :: rest := by
  rcases fault with ⟨-, rfl, -⟩ | ⟨k, step, -, fault⟩
  · exact ⟨[], rfl⟩
  · exact ⟨[k], fault.path_eq⟩

theorem Stage.NameFaultAt.path_eq {earlier : List String} {i : Nat} {stage : Stage}
    {site : Site} {issue : Issue} (fault : stage.NameFaultAt earlier i site issue) :
    site.path = [i, 0] := by
  rcases fault with ⟨-, rfl, -⟩ | ⟨-, rfl, -⟩ <;> rfl

theorem Stage.FaultAt.exists_path {earlier : List String} {i : Nat} {stage : Stage}
    {site : Site} {issue : Issue} (fault : stage.FaultAt earlier i site issue) :
    ∃ rest, site.path = i :: rest := by
  rcases fault with (fault | ⟨-, rfl, -⟩) | ⟨j, job, -, fault⟩
  · exact ⟨[0], fault.path_eq⟩
  · exact ⟨[1], rfl⟩
  · obtain ⟨rest, way⟩ := fault.exists_path
    exact ⟨_, way⟩

theorem Step.reportOf_issues (i j k : Nat) (job : String) (step : Step) :
    ReportOf (step.FaultAt i j k job) (step.issues job) :=
  reportOf_issueIf ..

theorem Job.reportOf_issues (i j : Nat) (stage : String) (job : Job) :
    ReportOf (job.FaultAt i j stage) (job.issues stage) := by
  have steps : ReportOf
      (fun site issue => ∃ (k : Nat) (step : Step), job.steps[k]? = some step ∧
        step.FaultAt i j k job.name site issue)
      (job.steps.flatMap (Step.issues job.name)) := by
    apply reportOf_flatMap (fun k step => step.reportOf_issues i j k job.name)
    intro k m step later less site issue other told first second
    rw [Site.lt_iff, first.path_eq, second.path_eq]
    simp [List.cons_lt_cons_iff, less]
  apply (reportOf_issueIf ..).append steps
  rintro site issue other told ⟨-, rfl, -⟩ ⟨k, step, -, second⟩
  rw [Site.lt_iff, second.path_eq]
  simp [Site.path]

theorem Stage.reportOf_nameIssues (earlier : List String) (i : Nat) (stage : Stage) :
    ReportOf (stage.NameFaultAt earlier i)
      (if isBlankName stage.name then [.blankStage i]
        else issueIf (earlier.contains stage.name) (.repeatedStage stage.name)) := by
  cases blank : isBlankName stage.name with
  | true => exact (reportOf_issueIf true (.stageName i) (.blankStage i)).congr (by
      simp [NameFaultAt, blank])
  | false => exact (reportOf_issueIf (earlier.contains stage.name) (.stageName i)
      (.repeatedStage stage.name)).congr (by simp [NameFaultAt, blank])

theorem Stage.reportOf_issues (earlier : List String) (i : Nat) (stage : Stage) :
    ReportOf (stage.FaultAt earlier i) (stage.issues earlier i) := by
  have jobs : ReportOf
      (fun site issue => ∃ (j : Nat) (job : Job), stage.jobs[j]? = some job ∧
        job.FaultAt i j stage.name site issue)
      (stage.jobs.flatMap (Job.issues stage.name)) := by
    apply reportOf_flatMap (fun j job => job.reportOf_issues i j stage.name)
    intro j m job later less site issue other told first second
    obtain ⟨rest, way⟩ := first.exists_path
    obtain ⟨further, wayOther⟩ := second.exists_path
    exact Site.lt_of_part_lt way wayOther (by omega)
  refine ((stage.reportOf_nameIssues earlier i).append (reportOf_issueIf ..) ?_).append jobs ?_
  · rintro site issue other told first ⟨-, rfl, -⟩
    exact Site.lt_of_part_lt first.path_eq rfl Nat.one_pos
  · rintro site issue other told first ⟨j, job, -, second⟩
    obtain ⟨rest, way⟩ := second.exists_path
    rcases first with first | ⟨-, rfl, -⟩
    · exact Site.lt_of_part_lt first.path_eq way (by omega)
    · exact Site.lt_of_part_lt rfl way (by omega)

/-- The names that were seen are those of the stages before. -/
theorem issuesOfStages_eq (seen : List String) (index : Nat) (stages : List Stage) :
    issuesOfStages seen index stages =
      (stages.mapIdx fun i stage =>
        stage.issues (((stages.take i).map Stage.name).reverse ++ seen) (index + i)).flatten := by
  induction stages generalizing seen index with
  | nil => rfl
  | cons stage stages ih =>
    rw [issuesOfStages, ih, List.mapIdx_cons, List.flatten_cons]
    simp [Nat.add_assoc, Nat.add_comm 1]

namespace Pipeline

/-- A name is told to be repeated if it is shown and stands before. -/
theorem repeated_iff (pipeline : Pipeline) (i : Nat) (name : String) :
    (!isBlankName name && ((pipeline.stages.take i).map Stage.name).reverse.contains name) = true ↔
      ¬Blank name ∧ name ∈ pipeline.stageNames.take i := by
  rw [Bool.and_eq_true, Bool.not_eq_true', ← Bool.not_eq_true, isBlankName_iff,
    List.contains_iff_mem, List.mem_reverse, List.map_take, stageNames]

/-- The faults of a pipeline are that it has no stages, and those of its stages. -/
theorem faulty_iff {pipeline : Pipeline} {site : Site} {issue : Issue} :
    pipeline.Faulty site issue ↔
      (pipeline.isEmpty = true ∧ site = .pipeline ∧ issue = .noStages) ∨
        ∃ (i : Nat) (stage : Stage), pipeline.stages[i]? = some stage ∧
          stage.FaultAt ((pipeline.stages.take i).map Stage.name).reverse i site issue := by
  constructor
  · intro fault
    cases fault with
    | noStages none => exact .inl ⟨List.isEmpty_iff.mpr none, rfl, rfl⟩
    | blankStage there blank =>
      exact .inr ⟨_, _, there, .inl (.inl (.inl ⟨isBlankName_iff.mpr blank, rfl, rfl⟩))⟩
    | repeatedStage there shown earlier =>
      have again := (pipeline.repeated_iff _ _).mpr ⟨shown, earlier⟩
      exact .inr ⟨_, _, there, .inl (.inl (.inr ⟨again, rfl, rfl⟩))⟩
    | emptyStage there none =>
      exact .inr ⟨_, _, there, .inl (.inr ⟨List.isEmpty_iff.mpr none, rfl, rfl⟩)⟩
    | blankJob there inside blank =>
      exact .inr ⟨_, _, there, .inr ⟨_, _, inside, .inl ⟨isBlankName_iff.mpr blank, rfl, rfl⟩⟩⟩
    | blankTask there inside within blank =>
      exact .inr ⟨_, _, there, .inr ⟨_, _, inside, .inr
        ⟨_, _, within, isBlankName_iff.mpr blank, rfl, rfl⟩⟩⟩
  · rintro (⟨none, rfl, rfl⟩ | ⟨i, stage, there, fault⟩)
    · exact .noStages (List.isEmpty_iff.mp none)
    · rcases fault with ((⟨blank, rfl, rfl⟩ | ⟨again, rfl, rfl⟩) | ⟨none, rfl, rfl⟩) |
        ⟨j, job, inside, fault⟩
      · exact .blankStage there (isBlankName_iff.mp blank)
      · obtain ⟨shown, earlier⟩ := (pipeline.repeated_iff _ _).mp again
        exact .repeatedStage there shown earlier
      · exact .emptyStage there (List.isEmpty_iff.mp none)
      · rcases fault with ⟨blank, rfl, rfl⟩ | ⟨k, step, within, blank, rfl, rfl⟩
        · exact .blankJob there inside (isBlankName_iff.mp blank)
        · exact .blankTask there inside within (isBlankName_iff.mp blank)

/-- The issues of a pipeline report all its faults. -/
theorem reportOf_issues (pipeline : Pipeline) : ReportOf pipeline.Faulty pipeline.issues := by
  have stages : ReportOf
      (fun site issue => ∃ (i : Nat) (stage : Stage), pipeline.stages[i]? = some stage ∧
        stage.FaultAt ((pipeline.stages.take i).map Stage.name).reverse i site issue)
      (issuesOfStages [] 0 pipeline.stages) := by
    simp only [issuesOfStages_eq, List.append_nil, Nat.zero_add]
    apply reportOf_flatten (fun i stage _ => stage.reportOf_issues _ i)
    intro i m stage later less site issue other told first second
    obtain ⟨rest, way⟩ := first.exists_path
    obtain ⟨further, wayOther⟩ := second.exists_path
    exact Site.lt_of_stage_lt way wayOther less
  refine ((reportOf_issueIf pipeline.isEmpty .pipeline .noStages).append stages ?_).congr
    fun site issue => faulty_iff.symm
  rintro site issue other told ⟨-, rfl, -⟩ ⟨i, stage, -, second⟩
  obtain ⟨rest, way⟩ := second.exists_path
  rw [Site.lt_iff, way]
  exact List.nil_lt_cons ..

/-! ### Sound pipelines -/

/-- Distinct items are those of which none stands before itself. -/
theorem nodup_iff_not_mem_take {α : Type} {items : List α} :
    items.Nodup ↔ ∀ (i : Nat) (item : α), items[i]? = some item → item ∉ items.take i := by
  rw [List.nodup_iff_getElem?_ne_getElem?]
  constructor
  · intro distinct i item there mem
    obtain ⟨n, bound, same⟩ := List.mem_take_iff_getElem.mp mem
    have inside := (List.getElem?_eq_some_iff.mp there).1
    apply distinct n i (by omega) inside
    rw [there, List.getElem?_eq_getElem (by omega), same]
  · intro fresh i j less bound same
    rw [List.getElem?_eq_getElem bound] at same
    apply fresh j _ (List.getElem?_eq_getElem bound)
    obtain ⟨inside, same⟩ := List.getElem?_eq_some_iff.mp same
    exact List.mem_take_iff_getElem.mpr ⟨i, by omega, same⟩

theorem getElem?_stageNames {pipeline : Pipeline} {i : Nat} {stage : Stage}
    (there : pipeline.stages[i]? = some stage) : pipeline.stageNames[i]? = some stage.name := by
  rw [stageNames, List.getElem?_map, there, Option.map_some]

/-- A pipeline is sound if nothing is wrong with it. -/
theorem sound_iff {pipeline : Pipeline} :
    pipeline.Sound ↔ ∀ site issue, ¬pipeline.Faulty site issue := by
  constructor
  · intro sound site issue fault
    cases fault with
    | noStages none => exact sound.staged none
    | blankStage there blank => exact sound.named _ (List.mem_of_getElem? there) blank
    | repeatedStage there shown earlier =>
      exact nodup_iff_not_mem_take.mp sound.distinct _ _ (getElem?_stageNames there) earlier
    | emptyStage there none => exact sound.filled _ (List.mem_of_getElem? there) none
    | blankJob there inside blank =>
      exact sound.jobsNamed _ (List.mem_of_getElem? there) _ (List.mem_of_getElem? inside) blank
    | blankTask there inside within blank =>
      refine sound.tasked _ (List.mem_flatMap.mpr ⟨_, List.mem_of_getElem? there, ?_⟩) blank
      exact List.mem_flatMap.mpr ⟨_, List.mem_of_getElem? inside, List.mem_of_getElem? within⟩
  · intro faultless
    have named : ∀ stage ∈ pipeline.stages, ¬Blank stage.name := by
      intro stage mem blank
      obtain ⟨i, there⟩ := List.mem_iff_getElem?.mp mem
      exact faultless _ _ (.blankStage there blank)
    refine ⟨fun none => faultless _ _ (.noStages none), named, ?_, ?_, ?_, ?_⟩
    · refine nodup_iff_not_mem_take.mpr fun i name named_i earlier => ?_
      rw [stageNames, List.getElem?_map] at named_i
      obtain ⟨stage, there, rfl⟩ := Option.map_eq_some_iff.mp named_i
      exact faultless _ _ (.repeatedStage there (named _ (List.mem_of_getElem? there)) earlier)
    · intro stage mem none
      obtain ⟨i, there⟩ := List.mem_iff_getElem?.mp mem
      exact faultless _ _ (.emptyStage there none)
    · intro stage mem job inside blank
      obtain ⟨i, there⟩ := List.mem_iff_getElem?.mp mem
      obtain ⟨j, inside⟩ := List.mem_iff_getElem?.mp inside
      exact faultless _ _ (.blankJob there inside blank)
    · intro step mem blank
      obtain ⟨stage, mem, inside⟩ := List.mem_flatMap.mp mem
      obtain ⟨job, inside, within⟩ := List.mem_flatMap.mp inside
      obtain ⟨i, there⟩ := List.mem_iff_getElem?.mp mem
      obtain ⟨j, inside⟩ := List.mem_iff_getElem?.mp inside
      obtain ⟨k, within⟩ := List.mem_iff_getElem?.mp within
      exact faultless _ _ (.blankTask there inside within blank)

/-- **The validator is sound and complete.** It accepts exactly the pipelines that have a stage,
whose stages have distinct names that are not blank and each a job, whose jobs have names that are
not blank and whose steps have a task. Otherwise it gives one issue for each fault, in the order of
the document: that there are no stages, the index of a stage with a blank name, a name that an
earlier stage has, a stage without jobs, a job with a blank name, and a step with a blank task. -/
theorem validate_tells_all (pipeline : Pipeline) :
    (pipeline.validate = .ok () ↔ pipeline.Sound) ∧
      ∃ findings : List (Site × Issue),
        findings.Pairwise (fun earlier later => earlier.1 < later.1) ∧
        (∀ site issue, (site, issue) ∈ findings ↔ pipeline.Faulty site issue) ∧
        pipeline.validate =
          match findings.map Prod.snd with
          | [] => .ok ()
          | issues => .error issues := by
  have report := pipeline.reportOf_issues
  constructor
  · rw [sound_iff, ← report.eq_nil_iff, validate]
    cases pipeline.issues with
    | nil => exact iff_of_true rfl rfl
    | cons issue issues => exact iff_of_false (by simp) (by simp)
  · obtain ⟨findings, ordered, all, told⟩ := report
    refine ⟨findings, ordered, all, ?_⟩
    rw [told, validate]
    cases pipeline.issues <;> rfl

/-- Of two stages of one name only the first has a job, and so an issue of its own is told of the
second, beside those of its name. -/
example : validate
    { variant := .gitLabCi
      stages :=
        [{ name := "Build", jobs := [{ name := "compile", steps := [⟨"Run", "", {}, none⟩] }] },
          { name := "Build" }, { name := "" }] } =
    .error [.blankTask "compile" "Run", .repeatedStage "Build", .emptyStage "Build",
      .blankStage 2, .emptyStage ""] := by
  decide

end Pipeline

end CiTranslate

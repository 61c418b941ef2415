import CiTranslate.Source
import CiTranslate.Proofs.InputValue
import CiTranslate.Proofs.Jenkins.Clean
import CiTranslate.Proofs.Payload

/-!
Jenkins scripts that were written are read back.

A clean script is divided at the declarations of its stages and nowhere else
(`Expressible.sections_stages`), and between two of them stand the commands of one stage
(`shellSteps_stageBody`). What is read back holds no more than commands, and can be written
again (`Expressible.restored`).
-/

namespace CiTranslate.Jenkins

open Groovy

section Expressible

variable {settings : JenkinsSettings} {pipeline : Pipeline}

/-! ### Sections -/

/-- Pieces that hold no division of a script. -/
def IsInert : Piece → Prop
  | .code text => text.foldl advance 0 = 0
  | .literal text => mentionsStage text = false
  | .comment _ => False

theorem foldl_advance_rowText {row : List Piece} (inert : ∀ piece ∈ row, IsInert piece) :
    (rowText row).foldl advance 0 = 0 := by
  induction row with
  | nil => rfl
  | cons piece row ih =>
    have own := inert piece (List.mem_cons_self ..)
    have first : piece.text.foldl advance 0 = 0 := by
      cases piece with
      | code text => exact own
      | literal text => exact foldl_advance_quote (by decide) own
      | comment text => exact own.elim
    rw [rowText_cons, List.foldl_append, first,
      ih fun other mem => inert other (List.mem_cons_of_mem _ mem)]

/-- Tidying the label of the agent does not make a division of a script of it. -/
theorem foldl_advance_agentRow (harmless : ∀ label ∈ settings.agent, Harmless label) :
    (cleanRow (agentRow settings)).foldl advance 0 = 0 := by
  have inert : ∀ piece ∈ agentRow settings, IsInert piece := by
    unfold agentRow
    cases given : settings.agent with
    | none => exact List.forall_mem_singleton.mpr (by unfold IsInert; decide)
    | some label =>
      dsimp only
      split
      · exact List.forall_mem_singleton.mpr (by unfold IsInert; decide)
      · simp only [List.forall_mem_cons, List.not_mem_nil, false_imp_iff, implies_true, and_true]
        exact ⟨by unfold IsInert; decide, (harmless label given).2, by unfold IsInert; decide⟩
  have kept : (agentRow settings).filter Piece.isKept = agentRow settings := by
    refine List.filter_eq_self.mpr fun piece mem => ?_
    have own := inert piece mem
    cases piece with
    | code text => rfl
    | literal text => rfl
    | comment text => exact own.elim
  rw [cleanRow, kept, rowText, collapsesBlanks_advance.foldl_tidied rfl, ← rowText]
  exact foldl_advance_rowText inert

theorem Expressible.foldl_advance_cleanStep (expressible : Expressible settings pipeline)
    {step : Step} (mem : step ∈ pipeline.steps) : (cleanStep step).foldl advance 0 = 0 := by
  unfold cleanStep
  cases script : step.command? with
  | none => rfl
  | some command =>
    have own : command ∈ step.name :: step.task :: step.command?.toList := by simp [script]
    have harmless := (expressible.stepTexts mem own).2
    have name := (expressible.stepTexts mem (List.mem_cons_self ..)).2
    have literal {text : List Char} (harmless : mentionsStage text = false) :
        (quote text).foldl advance 0 = 0 := foldl_advance_quote (by decide) harmless
    have indent : "                ".toList.foldl advance 0 = 0 := by decide
    have sh : ['s', 'h', ' '].foldl advance 0 = 0 := by decide
    have script : ['s', 'h', '(', 's', 'c', 'r', 'i', 'p', 't', ':', ' '].foldl advance 0 = 0 := by
      decide
    have label : [',', ' ', 'l', 'a', 'b', 'e', 'l', ':', ' '].foldl advance 0 = 0 := by decide
    have call : (call command.toList).foldl advance 0 = 0 := by
      have shape : call command.toList = ['s', 'h', ' '] ++ quote command.toList := rfl
      rw [shape, List.foldl_append, sh, literal harmless]
    have named : (namedCall command.toList step.name.toList).foldl advance 0 = 0 := by
      unfold namedCall
      simp only [List.foldl_append, script, literal harmless, label, literal name]
      rfl
    dsimp only
    rw [List.foldl_append, List.foldl_append, indent]
    split
    · rw [call]
      rfl
    · rw [named]
      rfl

theorem Expressible.foldl_advance_stageBody (expressible : Expressible settings pipeline)
    {stage : Stage} (mem : stage ∈ pipeline.stages) :
    (stageBody stage).foldl advance 0 = 0 := by
  have opening : bodyOpening.foldl advance 0 = 0 := by decide
  have closing : bodyClosing.foldl advance 0 = 0 := by decide
  have steps : (cleanSteps stage.steps).foldl advance 0 = 0 := by
    have run (steps : List Step) (own : ∀ step ∈ steps, step ∈ pipeline.steps) :
        (steps.flatMap cleanStep).foldl advance 0 = 0 := by
      induction steps with
      | nil => rfl
      | cons step steps ih =>
        rw [List.flatMap_cons, List.foldl_append,
          expressible.foldl_advance_cleanStep (own step (List.mem_cons_self ..)),
          ih fun other mem => own other (List.mem_cons_of_mem _ mem)]
    cases shape : stage.steps with
    | nil =>
      unfold cleanSteps
      decide
    | cons step steps =>
      have own : ∀ other ∈ step :: steps, other ∈ pipeline.steps := fun other hother =>
        List.mem_flatMap.mpr ⟨stage, mem, shape ▸ hother⟩
      exact run (step :: steps) own
  rw [stageBody, List.foldl_append, List.foldl_append, opening, steps, closing]

/-- What stands after a stage and before the next declaration. -/
def afterStage : List Stage → List Char
  | [] => scriptClosing
  | _ => stageIndent

/-- The sections of the stages. -/
def sectionsOf : List Stage → List (List Char × List Char)
  | [] => []
  | stage :: stages =>
    (stage.name.toList, stageBody stage ++ afterStage stages) :: sectionsOf stages

/-- The stages are divided at their declarations and nowhere else. -/
theorem Expressible.sections_stages (expressible : Expressible settings pipeline)
    {stages : List Stage} (own : ∀ stage ∈ stages, stage ∈ pipeline.stages) :
    sections 0 (stages.flatMap cleanStage ++ scriptClosing) =
      (afterStage stages, sectionsOf stages) := by
  induction stages with
  | nil =>
    have closing : scriptClosing.foldl advance 0 = 0 := by decide
    have last := sections_inert closing []
    rw [List.append_nil] at last
    rw [List.flatMap_nil, List.nil_append, last, sections, List.append_nil]
    rfl
  | cons stage stages ih =>
    have mem := own stage (List.mem_cons_self ..)
    have indent : stageIndent.foldl advance 0 = 0 := by decide
    have allowed := expressible.stageNames stage.name (List.mem_map.mpr ⟨stage, mem, rfl⟩)
    have nonempty : stage.name.toList ≠ [] := fun none =>
      allowed.1 (String.toList_eq_nil_iff.mp none)
    obtain ⟨-, single, double, slash, oneLine⟩ := allowed
    have unquoted : ∀ c ∈ stage.name.toList, isQuote c = false :=
      forall_not_isQuote_iff.mpr ⟨single, double⟩
    have unescaped : escape stage.name.toList = stage.name.toList :=
      escape_eq_self_iff_of_unquoted unquoted |>.mpr slash
    rw [List.flatMap_cons, cleanStage, List.append_assoc, List.append_assoc, List.append_assoc,
      sections_inert indent, sections_declaration nonempty unquoted oneLine, unescaped,
      sections_inert (expressible.foldl_advance_stageBody mem),
      ih fun other hother => own other (List.mem_cons_of_mem _ hother)]
    simp only [List.append_nil]
    rfl

end Expressible

/-! ### Steps -/

/-- The steps that a script keeps: those with a command, under their own names. -/
def scriptSteps (steps : List Step) : List Step :=
  steps.filterMap fun step => step.command?.map (Step.namedScript step.name)

/-- After the steps of a stage there is neither a label nor another step. -/
def Closes (rest : List Char) : Prop :=
  isQuiet rest = true ∧ (Text.trimStart rest).head? ≠ some ','

theorem closes_stage (stages : List Stage) : Closes (bodyClosing ++ afterStage stages) := by
  cases stages with
  | nil => exact ⟨by decide, by decide⟩
  | cons stage stages => exact (⟨by decide, by decide⟩ : Closes (bodyClosing ++ stageIndent))

theorem trimStart_blanks {blanks : List Char} (blank : ∀ c ∈ blanks, Text.isBlank c = true)
    (text : List Char) : Text.trimStart (blanks ++ text) = Text.trimStart text :=
  List.dropWhile_append_of_pos blank

/-- No comma follows a step that is written. -/
theorem head?_trimStart_steps (steps : List Step) {rest : List Char} (closes : Closes rest) :
    (Text.trimStart (steps.flatMap cleanStep ++ rest)).head? ≠ some ',' := by
  induction steps with
  | nil => exact closes.2
  | cons step steps ih =>
    rw [List.flatMap_cons, List.append_assoc]
    cases script : step.command? with
    | none =>
      rw [cleanStep_of_none script]
      exact ih
    | some command =>
      have indent : "                ".toList.all Text.isBlank = true := by decide
      have visible : Text.isBlank 's' = false := by decide
      obtain ⟨tail, shape⟩ : ∃ tail, (if step.name = command then call command.toList
          else namedCall command.toList step.name.toList) = 's' :: tail := by
        split
        · exact ⟨_, rfl⟩
        · exact ⟨_, rfl⟩
      rw [cleanStep_of_command script, shape, List.append_assoc, List.append_assoc,
        trimStart_blanks (List.all_eq_true.mp indent), List.cons_append,
        Text.trimStart_cons_of_not_blank visible]
      simp

/-- The step of a row is read back with its own name. -/
theorem shellStepsFrom_cleanStep (previous : Option Char) (step : Step) {rest : List Char}
    (next : (Text.trimStart rest).head? ≠ some ',') :
    ∃ last, shellStepsFrom previous 0 (cleanStep step ++ rest) =
      (step.command?.map (Step.namedScript step.name)).toList ++ shellStepsFrom last 0 rest := by
  cases script : step.command? with
  | none =>
    rw [cleanStep_of_none script]
    exact ⟨previous, rfl⟩
  | some command =>
    have indent : isQuiet "                ".toList = true := by decide
    have free :
        Option.any Text.isWord ("                ".toList.getLast?.or previous) = false := by
      rw [show "                ".toList.getLast? = some ' ' by decide]
      rfl
    have newline : isQuiet ['\n'] = true := rfl
    have mark : (['\n'] ++ rest).head? ≠ some '\'' := by simp
    have comma : (Text.trimStart (['\n'] ++ rest)).head? ≠ some ',' := by
      rwa [List.singleton_append, Text.trimStart_cons_of_blank rfl]
    refine ⟨some '\n', ?_⟩
    rw [cleanStep_of_command script, List.append_assoc, List.append_assoc,
      shellStepsFrom_quiet indent]
    split
    · next same =>
      rw [shellStepsFrom_call free _ mark comma, shellStepsFrom_quiet newline, String.ofList_toList,
        same]
      rfl
    · rw [shellStepsFrom_namedCall free, shellStepsFrom_quiet newline, String.ofList_toList,
        String.ofList_toList]
      rfl

theorem shellStepsFrom_steps (previous : Option Char) (steps : List Step) {rest : List Char}
    (closes : Closes rest) :
    shellStepsFrom previous 0 (steps.flatMap cleanStep ++ rest) = scriptSteps steps := by
  induction steps generalizing previous with
  | nil =>
    have none := shellStepsFrom_quiet closes.1 previous []
    rw [List.append_nil] at none
    rw [List.flatMap_nil, List.nil_append, none]
    rfl
  | cons step steps ih =>
    rw [List.flatMap_cons, List.append_assoc]
    obtain ⟨last, first⟩ :=
      shellStepsFrom_cleanStep previous step (head?_trimStart_steps steps closes)
    rw [first, ih last, scriptSteps, scriptSteps, List.filterMap_cons]
    cases step.command?.map (Step.namedScript step.name) <;> rfl

/-- The commands between two declarations are those of the stage. -/
theorem shellSteps_stageBody (stage : Stage) (stages : List Stage) :
    shellSteps (stageBody stage ++ afterStage stages) = scriptSteps stage.steps := by
  have opening : isQuiet bodyOpening = true := by decide
  have closes := closes_stage stages
  rw [shellSteps, stageBody, List.append_assoc, List.append_assoc, shellStepsFrom_quiet opening]
  cases stage.steps with
  | nil =>
    have echo : isQuiet (rowText echoRow) = true := by decide
    have none := shellStepsFrom_steps (some '\n') [] closes
    have last : (rowText echoRow).getLast? = some '\n' := by decide
    rw [cleanSteps, shellStepsFrom_quiet echo, last]
    exact none
  | cons step steps => exact shellStepsFrom_steps _ (step :: steps) closes

/-! ### Scripts -/

/-- The pipeline that a script is read back as. -/
def restored (pipeline : Pipeline) : Pipeline where
  variant := .jenkins
  stages := pipeline.stages.map fun stage => stageOf stage.name (scriptSteps stage.steps)

theorem map_sectionsOf (stages : List Stage) :
    (sectionsOf stages).map (fun section_ =>
      (⟨String.ofList section_.1, shellSteps section_.2⟩ : ScriptStage)) =
        stages.map fun stage => ⟨stage.name, scriptSteps stage.steps⟩ := by
  induction stages with
  | nil => rfl
  | cons stage stages ih =>
    rw [sectionsOf, List.map_cons, List.map_cons, ih, shellSteps_stageBody, String.ofList_toList]

theorem Expressible.stages_clean {settings : JenkinsSettings} {pipeline : Pipeline}
    (expressible : Expressible settings pipeline) :
    Groovy.stages (clean (write settings pipeline).toList) =
      pipeline.stages.map fun stage => ⟨stage.name, scriptSteps stage.steps⟩ := by
  have first : scriptOpening.foldl advance 0 = 0 := by decide
  have second : stagesOpening.foldl advance 0 = 0 := by decide
  have agent := foldl_advance_agentRow fun label given => expressible.agent given
  rw [Groovy.stages, expressible.clean_write, sections_inert first, sections_inert agent,
    sections_inert second,
    expressible.sections_stages fun _ mem => mem]
  exact map_sectionsOf pipeline.stages

theorem isPipeline_scriptOpening (rest : List Char) :
    isPipeline (scriptOpening ++ rest) = true := by
  have shape : scriptOpening = "pipeline".toList ++ [' ', '\x7b', '\n'] := by decide
  have visible : Text.trimStart (scriptOpening ++ rest) = scriptOpening ++ rest :=
    Text.trimStart_cons_of_not_blank (by decide) _
  have body : Text.trimStart ([' ', '\x7b', '\n'] ++ rest) = '\x7b' :: '\n' :: rest := rfl
  have found : Text.dropPrefix? "pipeline".toList (scriptOpening ++ rest) =
      some ([' ', '\x7b', '\n'] ++ rest) := by
    rw [shape, List.append_assoc, Text.dropPrefix?_append]
  simp only [isPipeline, visible, found, body]
  rfl

/-- What is written is taken for a script again. -/
theorem Writable.parse_write {settings : JenkinsSettings} {pipeline : Pipeline}
    (writable : Writable settings pipeline) :
    Pipeline.parse .jenkinsfileDeclarative (write settings pipeline) =
      readScript (String.ofList (clean (write settings pipeline).toList)) := by
  have absent : Text.contains Payload.fence (write settings pipeline).toList = false := by
    rw [toList_write]
    have fence : Payload.fence ∈ marks := List.mem_cons_self ..
    exact contains_rows (by decide) fun row hrow piece hpiece =>
      writable.lacks row hrow _ fence piece hpiece
  have isScript : isPipeline (clean (write settings pipeline).toList) = true := by
    rw [writable.clean_write]
    exact isPipeline_scriptOpening _
  have payload := Payload.ofText_script absent isScript
  have taken : Dialect.isScript .jenkinsfileDeclarative = true := rfl
  simp only [Pipeline.parse, payload, Source.ofPayload, Pipeline.ofSource, Pipeline.ofScript, taken,
    if_true]

theorem Expressible.parse_write {settings : JenkinsSettings} {pipeline : Pipeline}
    (expressible : Expressible settings pipeline) :
    Pipeline.parse .jenkinsfileDeclarative (write settings pipeline) = .ok (restored pipeline) := by
  obtain ⟨stage, stages, shape⟩ := List.exists_cons_of_ne_nil expressible.stages
  rw [expressible.writable.parse_write, readScript, String.toList_ofList, expressible.stages_clean,
    restored, shape]
  simp only [List.map_cons, List.map_map, Function.comp_def]

/-! ### A second pass -/

theorem scriptSteps_scriptSteps (steps : List Step) :
    scriptSteps (scriptSteps steps) = scriptSteps steps := by
  unfold scriptSteps
  rw [List.filterMap_filterMap]
  refine congrArg (fun f => List.filterMap f steps) (funext fun step => ?_)
  cases step.command? <;> rfl

@[simp] theorem steps_stageOf (name : String) (steps : List Step) :
    (stageOf name steps).steps = steps := by
  simp [stageOf, Stage.steps]

theorem restored_restored (pipeline : Pipeline) :
    restored (restored pipeline) = restored pipeline := by
  unfold restored
  rw [List.map_map]
  refine congrArg (Pipeline.mk _) (List.map_congr_left fun stage _ => ?_)
  rw [Function.comp_apply, steps_stageOf, scriptSteps_scriptSteps]
  rfl

/-- The steps that are read back have commands and names of steps that were written. -/
theorem exists_of_mem_steps_restored {pipeline : Pipeline} {step : Step}
    (mem : step ∈ (restored pipeline).steps) :
    ∃ original ∈ pipeline.steps, ∃ command, original.command? = some command ∧
      step = .namedScript original.name command := by
  obtain ⟨stage, hstage, mem⟩ := List.mem_flatMap.mp mem
  obtain ⟨original, horiginal, rfl⟩ := List.mem_map.mp hstage
  rw [steps_stageOf] at mem
  obtain ⟨other, hother, same⟩ := List.mem_filterMap.mp mem
  obtain ⟨command, script, rfl⟩ := Option.map_eq_some_iff.mp same
  exact ⟨other, List.mem_flatMap.mpr ⟨original, horiginal, hother⟩, command, script, rfl⟩

/-- What was read back can be written again, whatever the agent. -/
theorem Expressible.restored {settings later : JenkinsSettings} {pipeline : Pipeline}
    (expressible : Expressible settings pipeline) (label : ∀ label ∈ later.agent, Harmless label) :
    Expressible later (restored pipeline) := by
  have names : (Jenkins.restored pipeline).stageNames = pipeline.stageNames := by
    simp [Jenkins.restored, Pipeline.stageNames, stageOf, Function.comp_def]
  refine ⟨?_, ?_, ?_, ?_, ?_⟩
  · simpa [Jenkins.restored] using expressible.stages
  · rw [names]
    exact expressible.stageNames
  · intro step mem silent
    obtain ⟨original, -, command, -, rfl⟩ := exists_of_mem_steps_restored mem
    cases silent
  · intro step mem command script
    obtain ⟨original, horiginal, written, script', rfl⟩ := exists_of_mem_steps_restored mem
    cases script
    exact expressible.lines original horiginal _ script'
  · intro text mem
    rcases List.mem_append.mp mem with first | ofStep
    · rcases List.mem_append.mp first with agent | name
      · exact label text (Option.mem_toList.mp agent)
      · exact expressible.stageName (names ▸ name)
    · obtain ⟨step, hstep, own⟩ := List.mem_flatMap.mp ofStep
      obtain ⟨original, horiginal, command, script, rfl⟩ := exists_of_mem_steps_restored hstep
      have task : Harmless Step.scriptTask := by
        unfold Harmless
        decide
      simp only [Step.command?_namedScript, Option.toList_some, List.mem_cons, List.not_mem_nil,
        or_false] at own
      rcases own with rfl | rfl | rfl
      · exact expressible.stepTexts horiginal (List.mem_cons_self ..)
      · exact task
      · exact expressible.stepTexts horiginal (by simp [script])

/-- **Scripts keep their commands.** All stages come back in their order, each with one job that
holds the commands of all its jobs under their own names. Steps without a command vanish. What
was read back is not changed by another pass, whatever the agent. -/
theorem script_round_trip (settings later : JenkinsSettings) (pipeline : Pipeline)
    (expressible : Expressible settings pipeline) (label : ∀ label ∈ later.agent, Harmless label) :
    let restored : Pipeline :=
      { variant := .jenkins
        stages := pipeline.stages.map fun stage =>
          { name := stage.name
            jobs := [
              { name := stage.name ++ "_job"
                steps := (stage.jobs.flatMap Job.steps).filterMap fun step =>
                  step.command?.map fun command =>
                    { name := step.name
                      task := "script"
                      inputs := ({} : Inputs).put "script" command
                      condition := none } }] } }
    Pipeline.parse .jenkinsfileDeclarative (write settings pipeline) = .ok restored ∧
      Pipeline.parse .jenkinsfileDeclarative (write later restored) = .ok restored := by
  intro restored
  have shape : restored = Jenkins.restored pipeline := rfl
  have again := (expressible.restored label).parse_write
  rw [restored_restored] at again
  exact ⟨shape ▸ expressible.parse_write, shape ▸ again⟩

/-- Commands and names full of marks of scripts. -/
def markedScript : Pipeline where
  variant := .gitHubActions
  stages := [
    { name := "build & test", jobs := [
        { name := "first", steps := [
            .namedScript "it's // here" "echo('\\'') // no comment\n/* nor \"this\n''' )",
            { name := "sources\n", task := "actions/checkout@v4" }] },
        { name := "second", steps := [.script "println(\\) ", .namedScript "" ""] }] },
    { name := "stage" }]

/-- Such scripts can be written, even for an agent with a label of several lines. -/
theorem script_round_trip_markedScript :
    Expressible { agent := some "any\n\n'stage \n" } markedScript ∧
      Pipeline.parse .jenkinsfileDeclarative
        (write { agent := some "any\n\n'stage \n" } markedScript) =
          .ok (restored markedScript) := by
  have expressible : Expressible { agent := some "any\n\n'stage \n" } markedScript := by
    refine ⟨by decide, by decide, by decide, ?_, ?_⟩
    · unfold Tidy
      decide
    · unfold Harmless
      decide
  exact ⟨expressible, (script_round_trip { agent := some "any\n\n'stage \n" } {} markedScript
    expressible nofun).1⟩

end CiTranslate.Jenkins

import CiTranslate.Provider.Jenkins
import CiTranslate.Proofs.Groovy.Script

/-!
Scripts as they are written, row by row.

A script is the text of its rows (`toList_write`). What holds of the fixed rows, and of the rows
of the agent, of stages and of steps, holds of all rows (`forall_mem_rows`).
-/

namespace CiTranslate.Jenkins

open Groovy

/-! ### Scripts as rows -/

def codeRow (text : String) : List Piece := [.code text.toList]

def agentRow (settings : JenkinsSettings) : List Piece :=
  match settings.agent with
  | some label =>
    if label = "any" then codeRow "    agent any"
    else [.code "    agent \x7b label ".toList, .literal label.toList, .code " \x7d".toList]
  | none => codeRow "    agent any"

def openingRow (name : String) : List Piece :=
  [.code "        stage(".toList, .literal name.toList, .code ") \x7b".toList]

/-- The row of a step; a step without a command has only a comment. -/
def stepRow (step : Step) : List Piece :=
  match step.command? with
  | some command =>
    if step.name = command then [.code "                sh ".toList, .literal command.toList]
    else [.code "                sh(script: ".toList, .literal command.toList,
      .code ", label: ".toList, .literal step.name.toList, .code ")".toList]
  | none => [.code "                ".toList,
      .comment (' ' :: ((oneLine step.name).toList ++ ':' :: ' ' :: step.task.toList))]

/-- The row of a stage without steps. -/
def echoRow : List Piece :=
  [.code "                echo ".toList, .literal "No steps defined".toList]

def stepRows : List Step → List (List Piece)
  | [] => [echoRow]
  | steps => steps.map stepRow

def stageRows (stage : Stage) : List (List Piece) :=
  [openingRow stage.name, codeRow "            steps \x7b"] ++ stepRows stage.steps ++
    [codeRow "            \x7d", codeRow "        \x7d"]

def rows (settings : JenkinsSettings) (pipeline : Pipeline) : List (List Piece) :=
  [codeRow "pipeline \x7b", agentRow settings, codeRow "    stages \x7b"] ++
    pipeline.stages.flatMap stageRows ++ [codeRow "    \x7d", codeRow "\x7d"]

theorem rowText_openingRow (name : String) :
    rowText (openingRow name) =
      "        stage(".toList ++ (quote name.toList ++ [')', ' ', '\x7b', '\n']) := by
  have closing : ") \x7b".toList = [')', ' ', '\x7b'] := by decide
  simp [openingRow, Piece.text, closing]

theorem toList_line (depth : Nat) (text : String) :
    (line depth text).toList = List.replicate (4 * depth) ' ' ++ text.toList ++ ['\n'] := by
  simp [line]

@[simp] theorem toList_literal (text : String) : (literal text).toList = quote text.toList :=
  String.toList_ofList

theorem toList_agentLine (settings : JenkinsSettings) :
    (line 1 (agentLine settings)).toList = rowText (agentRow settings) := by
  rw [toList_line, agentLine, agentRow]
  cases settings.agent with
  | none => simp [codeRow, Piece.text]
  | some label =>
    by_cases any : label = "any"
    · simp [any, codeRow, Piece.text]
    · simp [any, Piece.text, ToString.toString]

theorem toList_stepLine (step : Step) :
    (line 4 (stepLine step)).toList = rowText (stepRow step) := by
  rw [toList_line, stepLine, stepRow]
  cases step.command? with
  | none => simp [Piece.text, ToString.toString]
  | some command =>
    by_cases same : step.name = command
    · simp [same, Piece.text, ToString.toString]
    · simp [same, Piece.text, ToString.toString]

theorem toList_steps (steps : List Step) :
    (String.join ((match steps with
      | [] => ["echo 'No steps defined'"]
      | steps => steps.map stepLine).map (line 4))).toList = (stepRows steps).flatMap rowText := by
  rw [String.toList_join]
  cases steps with
  | nil =>
    have echo : (line 4 "echo 'No steps defined'").toList = rowText echoRow :=
      (toList_line _ _).trans (by decide)
    simp only [List.map_cons, List.map_nil, stepRows, List.flatMap_cons, List.flatMap_nil, echo]
  | cons step steps =>
    rw [stepRows, List.map_map, List.flatMap_map, List.flatMap_map]
    · exact congrArg List.flatten (List.map_congr_left fun other _ => toList_stepLine other)
    · exact List.cons_ne_nil _ _

theorem toList_writeStage (stage : Stage) :
    (writeStage stage).toList = (stageRows stage).flatMap rowText := by
  have opening : (line 2 s!"stage({literal stage.name}) \x7b").toList =
      rowText (openingRow stage.name) := by
    refine (toList_line _ _).trans ?_
    simp [openingRow, Piece.text, ToString.toString]
  have steps : (line 3 "steps \x7b").toList = rowText (codeRow "            steps \x7b") :=
    (toList_line _ _).trans (by decide)
  have closing : (line 3 "\x7d").toList = rowText (codeRow "            \x7d") :=
    (toList_line _ _).trans (by decide)
  have last : (line 2 "\x7d").toList = rowText (codeRow "        \x7d") :=
    (toList_line _ _).trans (by decide)
  unfold writeStage stageRows
  simp only [String.toList_append, List.flatMap_append, List.flatMap_cons, List.flatMap_nil,
    List.append_nil, opening, steps, closing, last, List.append_assoc]
  exact congrArg (_ ++ ·) (congrArg (_ ++ ·) (congrArg (· ++ _) (toList_steps stage.steps)))

/-- A script is written row by row. -/
theorem toList_write (settings : JenkinsSettings) (pipeline : Pipeline) :
    (write settings pipeline).toList = (rows settings pipeline).flatMap rowText := by
  have first : "pipeline \x7b\n".toList = rowText (codeRow "pipeline \x7b") := by decide
  have stages : (line 1 "stages \x7b").toList = rowText (codeRow "    stages \x7b") :=
    (toList_line _ _).trans (by decide)
  have closing : (line 1 "\x7d").toList = rowText (codeRow "    \x7d") :=
    (toList_line _ _).trans (by decide)
  have last : "\x7d\n".toList = rowText (codeRow "\x7d") := by decide
  have middle : (pipeline.stages.map writeStage).flatMap String.toList =
      (pipeline.stages.flatMap stageRows).flatMap rowText := by
    rw [List.flatMap_map, List.flatMap_assoc]
    exact congrArg List.flatten (List.map_congr_left fun stage _ => toList_writeStage stage)
  unfold write rows
  simp only [String.toList_append, String.toList_join, List.flatMap_append, List.flatMap_cons,
    List.flatMap_nil, List.append_nil, first, toList_agentLine, stages, middle, closing, last,
    List.append_assoc]

/-! ### What holds of all rows -/

/-- The rows that are the same in every script. -/
def fixedRows : List (List Piece) :=
  [codeRow "pipeline \x7b", codeRow "    agent any", codeRow "    stages \x7b",
    codeRow "            steps \x7b", echoRow, codeRow "            \x7d",
    codeRow "        \x7d", codeRow "    \x7d", codeRow "\x7d"]

/-- What holds of the fixed rows, of the row with the label of an agent, and of the rows of stages
and steps, holds of all rows. -/
theorem forall_mem_rows {holds : List Piece → Prop} {settings : JenkinsSettings}
    {pipeline : Pipeline} (fixed : ∀ row ∈ fixedRows, holds row)
    (agent : holds (agentRow settings))
    (openings : ∀ name ∈ pipeline.stageNames, holds (openingRow name))
    (steps : ∀ step ∈ pipeline.steps, holds (stepRow step)) :
    ∀ row ∈ rows settings pipeline, holds row := by
  have inStage : ∀ stage ∈ pipeline.stages, ∀ row ∈ stageRows stage, holds row := by
    intro stage hstage row mem
    have own : ∀ row ∈ stepRows stage.steps, holds row := by
      intro row mem
      cases shape : stage.steps with
      | nil =>
        rw [shape] at mem
        exact List.mem_singleton.mp mem ▸ fixed echoRow (by simp [fixedRows])
      | cons first rest =>
        rw [shape] at mem
        obtain ⟨step, hstep, rfl⟩ := List.mem_map.mp mem
        exact steps step (List.mem_flatMap.mpr ⟨stage, hstage, shape ▸ hstep⟩)
    simp only [stageRows, List.mem_append, List.mem_cons, List.not_mem_nil, or_false] at mem
    rcases mem with ((rfl | rfl) | mem) | rfl | rfl
    · exact openings _ (List.mem_map.mpr ⟨stage, hstage, rfl⟩)
    · exact fixed _ (by simp [fixedRows])
    · exact own row mem
    · exact fixed _ (by simp [fixedRows])
    · exact fixed _ (by simp [fixedRows])
  intro row mem
  simp only [rows, List.mem_append, List.mem_cons, List.not_mem_nil, or_false,
    List.mem_flatMap] at mem
  rcases mem with ((rfl | rfl | rfl) | ⟨stage, hstage, mem⟩) | rfl | rfl
  · exact fixed _ (by simp [fixedRows])
  · exact agent
  · exact fixed _ (by simp [fixedRows])
  · exact inStage stage hstage row mem
  · exact fixed _ (by simp [fixedRows])
  · exact fixed _ (by simp [fixedRows])

end CiTranslate.Jenkins

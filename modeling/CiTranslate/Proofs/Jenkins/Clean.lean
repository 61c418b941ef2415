import CiTranslate.Payload.Fence
import CiTranslate.Proofs.Groovy.Declaration
import CiTranslate.Proofs.Groovy.ShellStep
import CiTranslate.Proofs.Jenkins.Rows

/-!
What cleaning leaves of scripts that were written.

Where no text holds a mark and no comment goes on in another line (`Writable`), a script is cleaned
row by row (`Writable.clean_write`). Where no text can be taken for a division of the script either
(`Expressible`), the rows of steps without a command are dropped and the others stay as they are,
but for blanks in the label of the agent (`Expressible.clean_write`).
-/

namespace CiTranslate.Jenkins

open Groovy

/-! ### Scripts that can be written -/

/-- Words that are not taken for text. -/
def marks : List (List Char) := Payload.fence :: placeholders

/-- A text that cannot be taken for a mark of a script. -/
def Harmless (text : String) : Prop :=
  (∀ word ∈ marks, Text.contains word text.toList = false) ∧ mentionsStage text.toList = false

/-- A text of which every line but the last is not blank and does not end in a blank. -/
def Tidy (text : String) : Prop :=
  ∀ line ∈ (text.toList.splitOn '\n').dropLast, Text.Solid line

/-- All texts that go into a script. -/
def textsOf (settings : JenkinsSettings) (pipeline : Pipeline) : List String :=
  settings.agent.toList ++ pipeline.stageNames ++
    pipeline.steps.flatMap fun step => step.name :: step.task :: step.command?.toList

/-- Pipelines that are written row by row. -/
structure Writable (settings : JenkinsSettings) (pipeline : Pipeline) : Prop where
  tasks : ∀ step ∈ pipeline.steps, step.command? = none → '\n' ∉ step.task.toList
  texts : ∀ text ∈ textsOf settings pipeline, ∀ word ∈ marks,
    Text.contains word text.toList = false

/-- Pipelines that a script can hold. -/
structure Expressible (settings : JenkinsSettings) (pipeline : Pipeline) : Prop where
  stages : pipeline.stages ≠ []
  stageNames : ∀ name ∈ pipeline.stageNames,
    name ≠ "" ∧ '\'' ∉ name.toList ∧ '"' ∉ name.toList ∧ '\\' ∉ name.toList ∧ '\n' ∉ name.toList
  tasks : ∀ step ∈ pipeline.steps, step.command? = none → '\n' ∉ step.task.toList
  lines : ∀ step ∈ pipeline.steps, ∀ command ∈ step.command?, Tidy command ∧ Tidy step.name
  texts : ∀ text ∈ textsOf settings pipeline, Harmless text

section Written

variable {settings : JenkinsSettings} {pipeline : Pipeline}

theorem label_mem_textsOf {label : String} (given : settings.agent = some label) :
    label ∈ textsOf settings pipeline :=
  List.mem_append_left _ (List.mem_append_left _ (by simp [given]))

theorem stageName_mem_textsOf {name : String} (mem : name ∈ pipeline.stageNames) :
    name ∈ textsOf settings pipeline :=
  List.mem_append_left _ (List.mem_append_right _ mem)

theorem stepText_mem_textsOf {step : Step} (mem : step ∈ pipeline.steps) {text : String}
    (own : text ∈ step.name :: step.task :: step.command?.toList) :
    text ∈ textsOf settings pipeline :=
  List.mem_append_right _ (List.mem_flatMap.mpr ⟨step, mem, own⟩)

theorem Expressible.writable (expressible : Expressible settings pipeline) :
    Writable settings pipeline :=
  ⟨expressible.tasks, fun text mem => (expressible.texts text mem).1⟩

theorem Expressible.agent (expressible : Expressible settings pipeline) {label : String}
    (given : settings.agent = some label) : Harmless label :=
  expressible.texts label (label_mem_textsOf given)

theorem Expressible.stageName (expressible : Expressible settings pipeline) {name : String}
    (mem : name ∈ pipeline.stageNames) : Harmless name :=
  expressible.texts name (stageName_mem_textsOf mem)

theorem Expressible.stepTexts (expressible : Expressible settings pipeline) {step : Step}
    (mem : step ∈ pipeline.steps) {text : String}
    (own : text ∈ step.name :: step.task :: step.command?.toList) : Harmless text :=
  expressible.texts text (stepText_mem_textsOf mem own)

/-! ### Marks -/

/-- The code of the rows of the agent, of stages and of steps. -/
def codes : List String :=
  ["    agent any", "    agent \x7b label ", " \x7d", "        stage(", ") \x7b",
    "                sh ", "                sh(script: ", ", label: ", ")", "                "]

theorem lacks_codes : ∀ text ∈ codes, ∀ word ∈ marks, (Piece.code text.toList).Lacks word := by
  decide +kernel

theorem lacks_comment {word : List Char} (mem : word ∈ marks) {name task : String}
    (first : Text.contains word name.toList = false)
    (second : Text.contains word task.toList = false) :
    Text.contains word (' ' :: ((oneLine name).toList ++ ':' :: ' ' :: task.toList)) = false := by
  have foreign : ∀ word ∈ marks, word ≠ [] ∧ ' ' ∉ word ∧ ':' ∉ word ∧ '\n' ∉ word := by decide
  obtain ⟨nonempty, blank, colon, newline⟩ := foreign word mem
  have joined : Text.contains word (oneLine name).toList = false := by
    rw [oneLine, String.toList_ofList, Text.contains_map, first]
    intro c
    by_cases same : c = '\n'
    · exact .inr ⟨same ▸ newline, by simpa [same] using blank⟩
    · exact .inl (by simp [same])
  rw [Text.contains_cons_of_not_mem nonempty blank, Text.contains_append_cons nonempty colon,
    Text.contains_cons_of_not_mem nonempty blank, joined, second, Bool.or_false]

/-- No mark stands in a row of its own accord. -/
theorem Writable.lacks (writable : Writable settings pipeline) :
    ∀ row ∈ rows settings pipeline, ∀ word ∈ marks, ∀ piece ∈ row, piece.Lacks word := by
  have code {text : String} (mem : text ∈ codes) {word : List Char} (mark : word ∈ marks) :
      (Piece.code text.toList).Lacks word := lacks_codes text mem word mark
  refine forall_mem_rows ?_ ?_ ?_ ?_
  · decide +kernel
  · unfold agentRow
    cases given : settings.agent with
    | none => exact fun word mark => List.forall_mem_singleton.mpr (code (by simp [codes]) mark)
    | some label =>
      intro word mark
      dsimp only
      split
      · exact List.forall_mem_singleton.mpr (code (by simp [codes]) mark)
      · simp only [List.forall_mem_cons, List.not_mem_nil, false_imp_iff, implies_true, and_true]
        exact ⟨code (by simp [codes]) mark,
          writable.texts label (label_mem_textsOf given) word mark, code (by simp [codes]) mark⟩
  · intro name hname word mark
    simp only [openingRow, List.forall_mem_cons, List.not_mem_nil, false_imp_iff, implies_true,
      and_true]
    exact ⟨code (by simp [codes]) mark,
      writable.texts name (stageName_mem_textsOf hname) word mark, code (by simp [codes]) mark⟩
  · intro step hstep word mark
    have own {text : String} (listed : text ∈ step.name :: step.task :: step.command?.toList) :
        Text.contains word text.toList = false :=
      writable.texts text (stepText_mem_textsOf hstep listed) word mark
    have name := own (List.mem_cons_self ..)
    have task := own (List.mem_cons_of_mem _ (List.mem_cons_self ..))
    unfold stepRow
    cases script : step.command? with
    | none =>
      simp only [List.forall_mem_cons, List.not_mem_nil, false_imp_iff, implies_true, and_true]
      exact ⟨code (by simp [codes]) mark, lacks_comment mark name task⟩
    | some command =>
      have text : Text.contains word command.toList = false := own (by simp [script])
      dsimp only
      split
      · simp only [List.forall_mem_cons, List.not_mem_nil, false_imp_iff, implies_true, and_true]
        exact ⟨code (by simp [codes]) mark, text⟩
      · simp only [List.forall_mem_cons, List.not_mem_nil, false_imp_iff, implies_true, and_true]
        exact ⟨code (by simp [codes]) mark, text, code (by simp [codes]) mark, name,
          code (by simp [codes]) mark⟩

/-! ### Clean rows -/

theorem cleans_codeRow {text : String} (plain : isPlain text.toList = true) :
    Cleans (codeRow text) :=
  Clear.cleans fun _ _ => ⟨plain, trivial⟩

/-- The word `echo` is not taken for a debug call, as a literal follows it. -/
theorem cleans_echoRow : Cleans echoRow := by
  intro previous rest allowed
  have blanks : isPlain "                ".toList = true := by decide
  have last : "                ".toList.getLast?.or previous = some ' ' := by
    rw [show "                ".toList.getLast? = some ' ' by decide]
    rfl
  have word : isPlain ['c', 'h', 'o', ' '] = true := by decide
  have newline : isPlain ['\n'] = true := by decide
  have shape : rowText echoRow ++ rest = "                ".toList ++ (['e'] ++
      (['c', 'h', 'o', ' '] ++ (quote "No steps defined".toList ++ (['\n'] ++ rest)))) := rfl
  have kept : passage (some ' ') (['e'] ++
      (['c', 'h', 'o', ' '] ++ (quote "No steps defined".toList ++ (['\n'] ++ rest)))) =
        (true, ['e'].length) := rfl
  have next : (['\n'] ++ rest).head? ≠ some '\'' := by simp
  rw [shape, withoutNoiseFrom_code blanks, last, withoutNoiseFrom_of_kept (by simp) kept,
    withoutNoiseFrom_code word, withoutNoiseFrom_literal _ _ next, withoutNoiseFrom_code newline]
  rfl

theorem newline_not_mem_oneLine (name : String) : '\n' ∉ (oneLine name).toList := by
  rw [oneLine, String.toList_ofList]
  intro mem
  obtain ⟨c, -, same⟩ := List.mem_map.mp mem
  split at same
  · cases same
  · next other => exact other (by simp [same])

theorem oneLine_comment {step : Step} (task : '\n' ∉ step.task.toList) :
    '\n' ∉ ' ' :: ((oneLine step.name).toList ++ ':' :: ' ' :: step.task.toList) := by
  simp [newline_not_mem_oneLine, task]

/-- Cleaning takes the comments out of all rows. -/
theorem Writable.cleans (writable : Writable settings pipeline) :
    ∀ row ∈ rows settings pipeline, Cleans row := by
  have literalRow {before after : String} (text : List Char)
      (first : isPlain before.toList = true) (last : isPlain after.toList = true)
      (next : after.toList.head? ≠ none ∧ after.toList.head? ≠ some '\'') :
      Cleans [.code before.toList, .literal text, .code after.toList] := by
    refine Clear.cleans fun _ _ => ⟨first, ?_, last, trivial⟩
    cases shape : after.toList with
    | nil => exact absurd (by rw [shape]; rfl) next.1
    | cons c chars => simpa [Piece.text, shape] using next.2
  refine forall_mem_rows ?_ ?_ ?_ ?_
  · intro row mem
    simp only [fixedRows, List.mem_cons, List.not_mem_nil, or_false] at mem
    rcases mem with rfl | rfl | rfl | rfl | rfl | rfl | rfl | rfl | rfl
    case inr.inr.inr.inr.inl => exact cleans_echoRow
    all_goals exact cleans_codeRow (by decide)
  · unfold agentRow
    cases settings.agent with
    | none => exact cleans_codeRow (by decide)
    | some label =>
      dsimp only
      split
      · exact cleans_codeRow (by decide)
      · exact literalRow label.toList (by decide) (by decide) (by decide)
  · exact fun name _ => literalRow name.toList (by decide) (by decide) (by decide)
  · intro step hstep
    unfold stepRow
    cases script : step.command? with
    | none =>
      have comment := oneLine_comment (writable.tasks step hstep script)
      refine Clear.cleans fun previous _ => ⟨by decide, ?_, comment, rfl⟩
      rw [show "                ".toList.getLast? = some ' ' by decide]
      simp
    | some command =>
      dsimp only
      split
      · exact Clear.cleans fun _ _ => ⟨by decide, by simp, trivial⟩
      · refine Clear.cleans fun _ _ => ⟨by decide, ?_, by decide, ?_, by decide, trivial⟩
        · simp [Piece.text]
        · simp [Piece.text]

/-- What cleaning leaves of the row of a step. -/
def cleanStep (step : Step) : List Char :=
  match step.command? with
  | some command => "                ".toList ++
      (if step.name = command then call command.toList
        else namedCall command.toList step.name.toList) ++ ['\n']
  | none => []

theorem cleanStep_of_none {step : Step} (silent : step.command? = none) : cleanStep step = [] := by
  rw [cleanStep, silent]

theorem cleanStep_of_command {step : Step} {command : String}
    (script : step.command? = some command) :
    cleanStep step = "                ".toList ++
      (if step.name = command then call command.toList
        else namedCall command.toList step.name.toList) ++ ['\n'] := by
  simp only [cleanStep, script]

theorem Expressible.cleanRow_stepRow (expressible : Expressible settings pipeline) {step : Step}
    (mem : step ∈ pipeline.steps) : cleanRow (stepRow step) = cleanStep step := by
  unfold cleanStep stepRow
  cases script : step.command? with
  | none =>
    change Text.tidied (rowText [.code "                ".toList]) = []
    decide
  | some command =>
    obtain ⟨lines, nameLines⟩ := expressible.lines step mem command script
    have command : Text.Steady none command.toList := Text.steady_iff.mpr lines
    have name : Text.Steady none step.name.toList := Text.steady_iff.mpr nameLines
    dsimp only
    split
    · refine (cleanRow_of_steady ?_ ?_).trans ?_
      · simp only [List.forall_mem_cons, List.not_mem_nil, false_imp_iff, implies_true, and_true]
        exact ⟨by unfold Piece.IsSteady; decide, command⟩
      · exact ⟨_, rfl, solid_quote _⟩
      · simp [Piece.text, call]
    · refine (cleanRow_of_steady ?_ ?_).trans ?_
      · simp only [List.forall_mem_cons, List.not_mem_nil, false_imp_iff, implies_true, and_true]
        exact ⟨by unfold Piece.IsSteady; decide, command, by unfold Piece.IsSteady; decide, name,
          by unfold Piece.IsSteady; decide⟩
      · exact ⟨_, rfl, show Text.Solid ")".toList from by decide⟩
      · simp [Piece.text, namedCall]

/-- What cleaning leaves of the steps of a stage. -/
def cleanSteps : List Step → List Char
  | [] => rowText echoRow
  | steps => steps.flatMap cleanStep

theorem cleanRow_of_mem_fixedRows : ∀ row ∈ fixedRows, cleanRow row = rowText row := by
  decide +kernel

theorem Expressible.cleanRow_stepRows (expressible : Expressible settings pipeline) {stage : Stage}
    (mem : stage ∈ pipeline.stages) :
    (stepRows stage.steps).flatMap cleanRow = cleanSteps stage.steps := by
  cases shape : stage.steps with
  | nil =>
    have echo := cleanRow_of_mem_fixedRows echoRow (by simp [fixedRows])
    rw [stepRows, List.flatMap_singleton, echo, cleanSteps]
  | cons step steps =>
    rw [stepRows, List.flatMap_map, cleanSteps]
    · refine congrArg List.flatten (List.map_congr_left fun other hother => ?_)
      exact expressible.cleanRow_stepRow (List.mem_flatMap.mpr ⟨stage, mem, shape ▸ hother⟩)
    · exact List.cons_ne_nil _ _
    · exact List.cons_ne_nil _ _

/-! ### The clean script -/

def stageIndent : List Char := "        ".toList

def bodyOpening : List Char := " \x7b\n            steps \x7b\n".toList

def bodyClosing : List Char := "            \x7d\n        \x7d\n".toList

def scriptOpening : List Char := "pipeline \x7b\n".toList

def stagesOpening : List Char := "    stages \x7b\n".toList

def scriptClosing : List Char := "    \x7d\n\x7d".toList

/-- The clean text of a stage after its declaration. -/
def stageBody (stage : Stage) : List Char := bodyOpening ++ cleanSteps stage.steps ++ bodyClosing

/-- The clean text of a stage. -/
def cleanStage (stage : Stage) : List Char :=
  stageIndent ++ declaration stage.name.toList ++ stageBody stage

theorem cleanRow_openingRow {name : String} (oneLine : '\n' ∉ name.toList) :
    cleanRow (openingRow name) =
      stageIndent ++ declaration name.toList ++ [' ', '\x7b', '\n'] := by
  refine (cleanRow_of_steady ?_ ?_).trans ?_
  · simp only [openingRow, List.forall_mem_cons, List.not_mem_nil, false_imp_iff, implies_true,
      and_true]
    exact ⟨by unfold Piece.IsSteady; decide, Text.steady_of_not_mem oneLine,
      by unfold Piece.IsSteady; decide⟩
  · exact ⟨_, rfl, show Text.Solid ") \x7b".toList from by decide⟩
  · have first : "        stage(".toList = stageIndent ++ (stageWord ++ ['(']) := by decide
    rw [rowText_openingRow, first, declaration]
    simp

/-- The rows around the steps of a stage stay as they are. -/
theorem cleanRow_stageRows (stage : Stage) :
    (stageRows stage).flatMap cleanRow = cleanRow (openingRow stage.name) ++
      (rowText (codeRow "            steps \x7b") ++
        ((stepRows stage.steps).flatMap cleanRow ++ bodyClosing)) := by
  have steps : cleanRow (codeRow "            steps \x7b") =
      rowText (codeRow "            steps \x7b") :=
    cleanRow_of_mem_fixedRows _ (by simp [fixedRows])
  have closing : cleanRow (codeRow "            \x7d") ++ cleanRow (codeRow "        \x7d") =
      bodyClosing := by decide
  rw [stageRows, ← closing]
  simp only [List.flatMap_append, List.flatMap_cons, List.flatMap_nil, List.append_nil, steps,
    List.append_assoc]

theorem Expressible.cleanRow_stageRows (expressible : Expressible settings pipeline) {stage : Stage}
    (mem : stage ∈ pipeline.stages) : (stageRows stage).flatMap cleanRow = cleanStage stage := by
  have oneLine : '\n' ∉ stage.name.toList :=
    (expressible.stageNames stage.name (List.mem_map.mpr ⟨stage, mem, rfl⟩)).2.2.2.2
  have first : bodyOpening =
      [' ', '\x7b', '\n'] ++ rowText (codeRow "            steps \x7b") := by decide
  rw [Jenkins.cleanRow_stageRows, cleanRow_openingRow oneLine, expressible.cleanRow_stepRows mem,
    cleanStage, stageBody, first]
  simp only [List.append_assoc]

/-- A script is cleaned row by row. -/
theorem Writable.clean_write (writable : Writable settings pipeline) :
    clean (write settings pipeline).toList = scriptOpening ++ (cleanRow (agentRow settings) ++
      (stagesOpening ++ ((pipeline.stages.flatMap stageRows).flatMap cleanRow ++
        scriptClosing))) := by
  have opening : cleanRow (codeRow "pipeline \x7b") = scriptOpening := by decide
  have stages : cleanRow (codeRow "    stages \x7b") = stagesOpening := by decide
  have closing : cleanRow (codeRow "    \x7d") ++ cleanRow (codeRow "\x7d") =
      scriptClosing ++ ['\n'] := by decide
  have whole : (rows settings pipeline).flatMap cleanRow =
      (scriptOpening ++ (cleanRow (agentRow settings) ++
        (stagesOpening ++ ((pipeline.stages.flatMap stageRows).flatMap cleanRow ++
          scriptClosing)))) ++ ['\n'] := by
    unfold rows
    simp only [List.flatMap_append, List.flatMap_cons, List.flatMap_nil, List.append_nil, opening,
      stages, List.append_assoc, closing]
  have nonempty : (rows settings pipeline).flatMap cleanRow ≠ [] := by
    rw [whole]
    exact List.append_ne_nil_of_right_ne_nil _ (List.cons_ne_nil _ _)
  have absent : ∀ word ∈ placeholders, ∀ row ∈ rows settings pipeline, ∀ piece ∈ row,
      piece.Lacks word := fun word mem row hrow =>
    writable.lacks row hrow word (List.mem_cons_of_mem _ mem)
  have cleaned := clean_rows writable.cleans absent nonempty
  rw [← toList_write, whole] at cleaned
  exact List.append_cancel_right cleaned

/-- What cleaning leaves of a script with steady commands and names. -/
theorem Expressible.clean_write (expressible : Expressible settings pipeline) :
    clean (write settings pipeline).toList = scriptOpening ++ (cleanRow (agentRow settings) ++
      (stagesOpening ++ (pipeline.stages.flatMap cleanStage ++ scriptClosing))) := by
  have middle : (pipeline.stages.flatMap stageRows).flatMap cleanRow =
      pipeline.stages.flatMap cleanStage := by
    rw [List.flatMap_assoc]
    exact congrArg List.flatten
      (List.map_congr_left fun stage mem => expressible.cleanRow_stageRows mem)
  rw [expressible.writable.clean_write, middle]

end Written

end CiTranslate.Jenkins

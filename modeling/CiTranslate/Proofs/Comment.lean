import CiTranslate.Proofs.Groovy.Declaration
import CiTranslate.Proofs.Groovy.ShellStep
import CiTranslate.Proofs.Jenkins.Clean
import CiTranslate.Provider.GitLab

/-!
What is run of steps without a command.

Such steps are written as comments, in scripts and among the lines of a job. A comment ends with
its line, and a name or a task may have more than one: scripts put the name on one line but not
the task (`withoutNoise_stepLine`), and jobs leave both as they are (`commented_line_iff`). What is
run is what the further lines spell.
-/

namespace CiTranslate

open Groovy

/-! ### Scripts -/

namespace Groovy

/-- The lines of a text after the first, each with its line end. -/
def furtherLines (text : List Char) : List Char := (text.splitOn '\n').tail.flatMap (· ++ ['\n'])

theorem exists_first_line (text : List Char) :
    ∃ first, '\n' ∉ first ∧ text ++ ['\n'] = first ++ '\n' :: furtherLines text := by
  obtain ⟨first, further, shape⟩ := List.exists_cons_of_ne_nil (List.splitOn_ne_nil '\n' text)
  refine ⟨first, Text.newline_not_mem_splitOn (shape ▸ List.mem_cons_self ..), ?_⟩
  rw [Text.append_newline_eq, furtherLines, shape, List.flatMap_cons, List.tail_cons]
  simp

theorem furtherLines_eq_nil {text : List Char} (oneLine : '\n' ∉ text) :
    furtherLines text = [] := by
  rw [furtherLines, List.splitOn_eq_singleton oneLine]
  rfl

/-- A line begins like a text. -/
theorem passage_newline (text : List Char) : passage (some '\n') text = passage none text := by
  have address : (some '\n' == some ':') = (none == some ':') := by decide
  have name : startsName (some '\n') = startsName none := by decide
  simp only [passage, noiseLength?, debugLength?, address, name]

theorem withoutNoiseFrom_newline (text : List Char) :
    withoutNoiseFrom (some '\n') true 0 text = withoutNoise text := by
  cases text with
  | nil => rfl
  | cons c text => rw [withoutNoise, withoutNoiseFrom, withoutNoiseFrom, passage_newline]

theorem withoutNoise_comment {text : List Char} (oneLine : '\n' ∉ text) (rest : List Char) :
    withoutNoise ('/' :: '/' :: (text ++ '\n' :: rest)) = '\n' :: withoutNoise rest := by
  have plain : isPlain ['\n'] = true := by decide
  have start : none ≠ some ':' := nofun
  obtain ⟨last, dropped⟩ := withoutNoiseFrom_comment start oneLine rest
  rw [withoutNoise, dropped]
  exact (withoutNoiseFrom_code plain last rest).trans
    (congrArg ('\n' :: ·) (withoutNoiseFrom_newline rest))

theorem shellSteps_newline (text : List Char) : shellSteps ('\n' :: text) = shellSteps text := by
  have quiet : isQuiet ['\n'] = true := rfl
  have line : shellStepsFrom (some '\n') 0 text = shellStepsFrom none 0 text := by
    cases text with
    | nil => rfl
    | cons c text =>
      have same : takeShellStep? (some '\n') (c :: text) = takeShellStep? none (c :: text) := by
        have free : Option.any Text.isWord (some '\n') = Option.any Text.isWord none := by decide
        simp only [takeShellStep?, free]
      rw [shellStepsFrom, shellStepsFrom, same]
  exact (shellStepsFrom_quiet quiet none text).trans line

theorem stages_newline (text : List Char) : stages ('\n' :: text) = stages text := by
  have absent : 's' ∉ ['\n'] := by decide
  have divided := sections_of_not_mem absent text
  rw [List.singleton_append] at divided
  rw [stages, divided, stages]

end Groovy

namespace Jenkins

/-- Cleaning takes the comment of a step up to the first line end of its task, and goes on with the
lines after it. -/
theorem withoutNoise_stepLine {step : Step} (silent : step.command? = none) :
    withoutNoise ((stepLine step).toList ++ ['\n']) =
      '\n' :: withoutNoise (furtherLines step.task.toList) := by
  obtain ⟨first, oneLine, task⟩ := exists_first_line step.task.toList
  have shape : (stepLine step).toList ++ ['\n'] = '/' :: '/' ::
      ((' ' :: ((Jenkins.oneLine step.name).toList ++ ':' :: ' ' :: first)) ++
        '\n' :: furtherLines step.task.toList) := by
    have written : (stepLine step).toList = '/' :: '/' :: ' ' ::
        ((Jenkins.oneLine step.name).toList ++ ':' :: ' ' :: step.task.toList) := by
      rw [stepLine, silent]
      simp [ToString.toString]
    rw [written]
    simp [task]
  have comment : '\n' ∉ ' ' :: ((Jenkins.oneLine step.name).toList ++ ':' :: ' ' :: first) := by
    simp [newline_not_mem_oneLine, oneLine]
  rw [shape, withoutNoise_comment comment]

end Jenkins

/-! ### Lines of jobs -/

namespace GitLab

/-- Whether every line but the first is a comment. -/
def Commented : List Char → Prop
  | [] => True
  | c :: text => (c = '\n' → text.head? = some '#') ∧ Commented text

/-- The first line of a text begins like the text. -/
theorem head?_eq_of_splitOn {text first : List Char} {further : List (List Char)}
    (shape : text.splitOn '\n' = first :: further) :
    text.head? = some '#' ↔ first.head? = some '#' := by
  cases text with
  | nil => simp_all
  | cons c text =>
    rw [List.splitOn_cons_eq_if_modifyHead] at shape
    by_cases newline : c = '\n'
    · rw [if_pos (beq_iff_eq.mpr newline)] at shape
      obtain ⟨rfl, -⟩ := List.cons.inj shape
      simp [newline]
    · obtain ⟨own, others, rest⟩ := List.exists_cons_of_ne_nil (List.splitOn_ne_nil '\n' text)
      rw [if_neg (by simpa using newline), rest, List.modifyHead_cons] at shape
      obtain ⟨rfl, -⟩ := List.cons.inj shape
      rfl

theorem commented_iff {text : List Char} :
    Commented text ↔ ∀ line ∈ (text.splitOn '\n').tail, line.head? = some '#' := by
  induction text with
  | nil => simp [Commented]
  | cons c text ih =>
    obtain ⟨first, further, shape⟩ := List.exists_cons_of_ne_nil (List.splitOn_ne_nil '\n' text)
    rw [Commented, ih, List.splitOn_cons_eq_if_modifyHead, shape]
    by_cases newline : c = '\n'
    · simp [newline, head?_eq_of_splitOn shape]
    · simp [newline]

theorem commented_append {text rest : List Char} (other : rest.head? ≠ some '#') :
    Commented (text ++ rest) ↔ Commented text ∧ Commented rest := by
  induction text with
  | nil => simp [Commented]
  | cons c text ih =>
    have begin : (text ++ rest).head? = some '#' ↔ text.head? = some '#' := by
      cases text with
      | nil => simpa using other
      | cons => simp
    rw [List.cons_append, Commented, Commented, begin, ih, and_assoc]

/-- The line of a step without a command is a comment as far as its name and its task are. -/
theorem commented_line_iff {step : Step} (silent : step.command? = none) :
    (∀ text ∈ (line step).toList.splitOn '\n', text.head? = some '#') ↔
      Commented step.name.toList ∧ Commented step.task.toList := by
  have written : (line step).toList =
      '#' :: ' ' :: (step.name.toList ++ ':' :: ' ' :: step.task.toList) := by
    rw [line, silent]
    simp [ToString.toString]
  obtain ⟨first, further, shape⟩ :=
    List.exists_cons_of_ne_nil (List.splitOn_ne_nil '\n' (line step).toList)
  have mark : first.head? = some '#' := (head?_eq_of_splitOn shape).mp (by rw [written]; rfl)
  have whole : (∀ text ∈ (line step).toList.splitOn '\n', text.head? = some '#') ↔
      Commented (line step).toList := by
    rw [commented_iff, shape, List.forall_mem_cons, List.tail_cons, and_iff_right mark]
  have bounds : Commented (step.name.toList ++ ':' :: ' ' :: step.task.toList) ↔
      Commented step.name.toList ∧ Commented (':' :: ' ' :: step.task.toList) :=
    commented_append (by simp)
  rw [whole, written]
  simpa [Commented] using bounds

end GitLab

/-! ### Both -/

namespace Step

/-- **Steps without a command are comments up to the first line end that is left in them.** In a
script, cleaning takes the name and the first line of the task; what is run is what the further
lines of the task spell, which is nothing when there are none. Among the lines of a job, all are
comments exactly when the further lines of the name and of the task are comments themselves. -/
theorem comments_of_silent (step : Step) (silent : step.command? = none) :
    let left := withoutNoise ((Jenkins.stepLine step).toList ++ ['\n'])
    let further := withoutNoise (furtherLines step.task.toList)
    (left = '\n' :: further ∧ shellSteps left = shellSteps further ∧
        stages left = stages further) ∧
      ('\n' ∉ step.task.toList →
        Text.isBlankText left = true ∧ shellSteps left = [] ∧ stages left = []) ∧
      ((∀ line ∈ (GitLab.line step).toList.splitOn '\n', line.head? = some '#') ↔
        ∀ text ∈ [step.name, step.task],
          ∀ line ∈ (text.toList.splitOn '\n').tail, line.head? = some '#') := by
  intro left further
  have whole : left = '\n' :: further := Jenkins.withoutNoise_stepLine silent
  refine ⟨⟨whole, ?_, ?_⟩, ?_, ?_⟩
  · rw [whole, shellSteps_newline]
  · rw [whole, stages_newline]
  · intro oneLine
    have blank : left = ['\n'] := by
      rw [whole]
      simp only [further, furtherLines_eq_nil oneLine]
      rfl
    rw [blank]
    decide
  · rw [GitLab.commented_line_iff silent, GitLab.commented_iff, GitLab.commented_iff]
    simp

/-- A step without a command, though its name and its task spell stages and calls. -/
def noticeStep : Step where
  name := "sh 'a'\n# stage('B')"
  task := "stage('B') \x7b sh 'rm' \x7d"

theorem comments_of_silent_noticeStep :
    noticeStep.command? = none ∧
      Text.isBlankText (withoutNoise ((Jenkins.stepLine noticeStep).toList ++ ['\n'])) = true ∧
      ∀ line ∈ (GitLab.line noticeStep).toList.splitOn '\n', line.head? = some '#' := by
  have silent : noticeStep.command? = none := by decide
  obtain ⟨-, script, job⟩ := comments_of_silent noticeStep silent
  refine ⟨silent, (script (by decide)).1, job.mpr ?_⟩
  decide

/-- The second line of a task is run in scripts and in jobs. -/
theorem not_comments_of_silent :
    ¬∀ step : Step, step.command? = none →
      Text.isBlankText (withoutNoise ((Jenkins.stepLine step).toList ++ ['\n'])) = true ∧
        ∀ line ∈ (GitLab.line step).toList.splitOn '\n', line.head? = some '#' := by
  intro comments
  have silent : ({ name := "n", task := "t\nsh 'rm'" } : Step).command? = none := by decide
  have script := (comments _ silent).1
  exact absurd script (by decide)

end Step

end CiTranslate

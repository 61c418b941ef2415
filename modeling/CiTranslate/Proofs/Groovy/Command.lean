import CiTranslate.Proofs.Groovy.Declaration
import CiTranslate.Proofs.Groovy.Script
import CiTranslate.Proofs.Groovy.ShellStep

/-!
What becomes of a command on its way through a script.

Comments and debug calls are looked for outside of literals only (`withoutNoise_call`), but lines
are tidied wherever they stand: a command of several lines loses the blanks before its line feeds
(`clean_call`). Declarations of stages are looked for in literals as well, and a command that spells
one is cut in two there (`stages_command`).
-/

namespace CiTranslate.Groovy

/-! ### Cleaning -/

/-- The literal of a command holds no noise, whatever stands in it. -/
theorem withoutNoise_call (command : List Char) : withoutNoise (call command) = call command := by
  have word : isPlain ['s', 'h', ' '] = true := by decide
  have shape : call command = ['s', 'h', ' '] ++ (quote command ++ []) := by simp [call]
  rw [withoutNoise, shape, withoutNoiseFrom_code word, withoutNoiseFrom_literal _ _ (by simp)]
  rfl

theorem contains_call {word : List Char} (mem : word ∈ placeholders) {command : List Char}
    (absent : Text.contains word command = false) : Text.contains word (call command) = false := by
  have foreign : ∀ word ∈ placeholders, Foreign word ∧ ' ' ∉ word := by decide
  have before : ∀ word ∈ placeholders, Text.contains word ['s', 'h'] = false := by decide
  obtain ⟨⟨nonempty, other⟩, gap⟩ := foreign word mem
  have literal := contains_quote nonempty (fun c own => (other c own).1) absent
  have shape : call command = ['s', 'h'] ++ ' ' :: quote command := rfl
  rw [shape, Text.contains_append_cons nonempty gap, before word mem, literal, Bool.or_self]

/-- A call is tidied like any other text. -/
theorem clean_call_append_newline {command : List Char}
    (absent : ∀ word ∈ placeholders, Text.contains word command = false) :
    clean (call command) ++ ['\n'] = Text.tidied (call command ++ ['\n']) := by
  have some : Text.tidied (call command) ≠ [] :=
    Text.tidied_ne_nil (c := 's') (List.mem_cons_self ..) rfl
  have words := withoutPlaceholders_eq_self fun word mem => contains_call mem (absent word mem)
  rw [clean, withoutNoise_call, words, tidyLines_append_newline some, Text.tidied_append_newline]

/-- **Cleaning treats the lines of a command like those of code.** Each line is freed from the
blanks at its end, and dropped when nothing is left. So a command is kept exactly when none of its
line feeds follows a blank, be it another line feed. -/
theorem clean_call (command : List Char)
    (absent : ∀ word ∈ placeholders, Text.contains word command = false) :
    clean (call command) ++ ['\n'] = ((call command).splitOn '\n').flatMap Text.keptLine ∧
      (clean (call command) = call command ↔
        ∀ blank, Text.isBlank blank = true → ¬[blank, '\n'] <:+: command) := by
  have tidied := clean_call_append_newline absent
  have steady : Text.Steady none (call command ++ ['\n']) ↔ Text.Steady (some '\'') command := by
    have last : (call command).getLast? = some '\'' := by
      rw [call, List.getLast?_cons, List.getLast?_cons, List.getLast?_cons, getLast?_quote]
      rfl
    have word : Text.Steady none (call command) ↔ Text.Steady (some ' ') (quote command) := by
      simp [call, Text.Steady]
    rw [Text.steady_append, last, word, steady_quote_iff]
    simp [Text.Steady, Text.isBlank]
  refine ⟨tidied.trans (Text.tidied_eq_flatMap _), ?_⟩
  calc clean (call command) = call command
      ↔ clean (call command) ++ ['\n'] = call command ++ ['\n'] := List.append_left_inj _ |>.symm
    _ ↔ Text.tidied (call command ++ ['\n']) = call command ++ ['\n'] := by rw [tidied]
    _ ↔ Text.Steady none (call command ++ ['\n']) := Text.tidied_eq_self_iff
    _ ↔ Text.Steady (some '\'') command := steady
    _ ↔ ∀ blank, Text.isBlank blank = true → ¬[blank, '\n'] <:+: command :=
      Text.steady_some_iff rfl

/-- A command that is kept, though it is full of what cleaning looks for. -/
def noisyCommand : List Char := "\n  cp 'a'//b \\ # /*\n\techo(\"*/\") // end ".toList

theorem clean_call_noisyCommand :
    (∀ word ∈ placeholders, Text.contains word noisyCommand = false) ∧
      clean (call noisyCommand) = call noisyCommand := by
  have absent : ∀ word ∈ placeholders, Text.contains word noisyCommand = false := by decide
  have steady : Text.Steady (some '\'') noisyCommand := by decide
  exact ⟨absent, (clean_call noisyCommand absent).2.mpr ((Text.steady_some_iff rfl).mp steady)⟩

/-- A blank line in a command is lost. -/
theorem not_clean_call :
    ¬∀ command, (∀ word ∈ placeholders, Text.contains word command = false) →
      clean (call command) = call command := by
  intro kept
  have absent : ∀ word ∈ placeholders, Text.contains word "a\n\nb".toList = false := by decide
  have same := kept "a\n\nb".toList absent
  exact absurd same (by decide)

/-! ### Stages -/

/-- A call between two blanks is the only step of the text it stands in. -/
theorem shellSteps_call (command : List Char) :
    shellSteps ([' ', '\x7b', ' '] ++ (call command ++ [' ', '\x7d'])) =
      [.script (String.ofList command)] := by
  have before : isQuiet [' ', '\x7b', ' '] = true := by decide
  have after : isQuiet [' ', '\x7d'] = true := by decide
  have free : Option.any Text.isWord (some ' ') = false := rfl
  have last : shellStepsFrom (some '\'') 0 [' ', '\x7d'] = [] := by
    have none := shellStepsFrom_quiet after (some '\'') []
    rwa [List.append_nil] at none
  rw [shellSteps, shellStepsFrom_quiet before]
  refine (shellStepsFrom_call free command (by simp) (by decide)).trans ?_
  rw [last]

/-- **Stages are looked for in commands as well.** The script of one stage with one command is read
as that exactly when the escaped text of the command spells no declaration; otherwise it is divided
into more stages. -/
theorem stages_command (command : String) :
    let script := "stage('A') \x7b sh ".toList ++ quote command.toList ++ " \x7d".toList
    (stages script = [⟨"A", [.script command]⟩] ↔ ¬DeclaresStage (escape command.toList)) ∧
      (1 < (stages script).length ↔ DeclaresStage (escape command.toList)) := by
  intro script
  obtain ⟨body, hbody⟩ : ∃ body, body =
      [' ', '\x7b', ' ', 's', 'h', ' '] ++ quote command.toList ++ [' ', '\x7d'] := ⟨_, rfl⟩
  have shape : script = declaration ['A'] ++ body := by
    have opening : "stage('A') \x7b sh ".toList =
        declaration ['A'] ++ [' ', '\x7b', ' ', 's', 'h', ' '] := by decide
    have closing : " \x7d".toList = [' ', '\x7d'] := by decide
    simp only [script, opening, closing, hbody, List.append_assoc]
  have own : DeclaresStage body ↔ DeclaresStage (escape command.toList) := by
    rw [hbody]
    exact declaresStage_literal_iff (by decide) (by decide) command.toList
  have step : shellSteps body = [.script command] := by
    have found := shellSteps_call command.toList
    rw [String.ofList_toList] at found
    rw [← found, hbody]
    simp [call]
  have named : ['A'] ≠ [] := List.cons_ne_nil _ _
  have unquoted : ∀ c ∈ ['A'], isQuote c = false := List.forall_mem_singleton.mpr rfl
  have divided := sections_declaration named unquoted (by decide) body
  rw [← own]
  simp only [stages, shape, divided, List.map_cons, List.length_cons, List.length_map]
  constructor
  · constructor
    · intro whole
      exact sections_snd_eq_nil_iff.mp (List.map_eq_nil_iff.mp (List.cons.inj whole).2)
    · intro undeclared
      rw [sections_eq_iff.mpr undeclared, step]
      rfl
  · rw [← Decidable.not_iff_not, ← sections_snd_eq_nil_iff, ← List.length_eq_zero_iff]
    omega

/-- The step of a command is lost when it spells a declaration. -/
theorem not_stages_command :
    ¬∀ command : String,
      stages ("stage('A') \x7b sh ".toList ++ quote command.toList ++ " \x7d".toList) =
        [⟨"A", [.script command]⟩] := by
  intro whole
  exact absurd (whole "stage(\"B\")") (by decide)

end CiTranslate.Groovy

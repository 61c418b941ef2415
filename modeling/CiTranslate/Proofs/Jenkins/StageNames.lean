import CiTranslate.Proofs.RoundTrip.Jenkins

/-!
Names of stages in scripts.

A name is written as a literal, and read as it stands between two quotes. So a name with a quote is
never read (`unquoted_of_readScript`), a name of several lines is not read as it stands between
three quotes, and a backslash is read as the two that were written (`sectionNames_openingRow`).
-/

namespace CiTranslate.Jenkins

open Groovy

/-! ### Names that are read -/

/-- The names of the sections of a text. -/
def sectionNames (text : List Char) : List (List Char) := (sections 0 text).2.map Prod.fst

theorem stageNames_readScript (script : String) :
    (readScript script).map Pipeline.stageNames =
      if (sectionNames script.toList).map String.ofList = [] then
        .error (.missingField "stage" "Jenkins pipeline script (no stages found)")
      else .ok ((sectionNames script.toList).map String.ofList) := by
  unfold readScript sectionNames Groovy.stages
  cases (sections 0 script.toList).2 with
  | nil => rfl
  | cons first others =>
    simp [Except.map, Pipeline.stageNames, stageOf, Function.comp_def]

/-- No name that is read has a quote. -/
theorem unquoted_of_readScript {script : String} {names : List String}
    (read : (readScript script).map Pipeline.stageNames = .ok names) :
    ∀ name ∈ names, ∀ c ∈ name.toList, isQuote c = false := by
  rw [stageNames_readScript] at read
  split at read
  · cases read
  · cases read
    intro name mem
    obtain ⟨chars, listed, rfl⟩ := List.mem_map.mp mem
    obtain ⟨declared, found, rfl⟩ := List.mem_map.mp listed
    obtain ⟨call, named⟩ := exists_call_of_mem_sections found
    rw [String.toList_ofList, ← named]
    exact call.unquoted

theorem sectionNames_inert {text : List Char} (inert : text.foldl advance 0 = 0)
    (rest : List Char) : sectionNames (text ++ rest) = sectionNames rest := by
  rw [sectionNames, sections_inert inert, sectionNames]

/-! ### Rows of names -/

theorem tidied_openingRow (name : String) :
    cleanRow (openingRow name) = Text.tidied (rowText (openingRow name)) := rfl

/-- The row of a name ends like its literal, tidied or not. -/
theorem exists_cleanRow_openingRow (name : String) :
    ∃ kept, cleanRow (openingRow name) = kept ++ '\'' :: [')', ' ', '\x7b', '\n'] := by
  have oneLine : '\n' ∉ ['\'', ')', ' ', '\x7b'] := by decide
  have solid : Text.Solid ['\'', ')', ' ', '\x7b'] := by decide
  obtain ⟨body, ends⟩ := List.getLast?_eq_some_iff.mp (getLast?_quote name.toList)
  have shape : rowText (openingRow name) =
      ("        stage(".toList ++ body) ++ ['\'', ')', ' ', '\x7b'] ++ ['\n'] := by
    rw [rowText_openingRow, ends]
    simp
  obtain ⟨kept, tidied⟩ := Text.exists_tidied_append oneLine solid ("        stage(".toList ++ body)
  refine ⟨kept, ?_⟩
  rw [tidied_openingRow, shape, tidied]
  simp

/-- The row of a name of several lines declares nothing. -/
theorem sectionNames_openingRow_of_newline {name : String} (newline : '\n' ∈ name.toList)
    (unquoted : ∀ c ∈ name.toList, isQuote c = false) (rest : List Char) :
    sectionNames (cleanRow (openingRow name) ++ rest) = sectionNames rest := by
  have idle : (cleanRow (openingRow name)).foldl watch .idle = .idle := by
    have opening : "        stage(".toList.foldl watch .idle = .opened := by decide
    have closing : [')', ' ', '\x7b', '\n'].foldl watch .idle = .idle := by decide
    rw [tidied_openingRow, rowText, collapsesBlanks_watch.foldl_tidied rfl, ← rowText,
      rowText_openingRow, List.foldl_append, List.foldl_append, opening,
      foldl_watch_quote newline unquoted, closing]
  obtain ⟨kept, ends⟩ := exists_cleanRow_openingRow name
  rw [ends] at idle ⊢
  rw [sectionNames, sections_of_watch (by decide) (by decide) idle, sectionNames]

/-- The row of a name declares it as it is spelled in its literal, if that is on one line. -/
theorem sectionNames_openingRow {name : String} (nonempty : name ≠ "")
    (unquoted : ∀ c ∈ name.toList, isQuote c = false) (rest : List Char) :
    sectionNames (cleanRow (openingRow name) ++ rest) =
      (if '\n' ∈ name.toList then [] else [escape name.toList]) ++ sectionNames rest := by
  by_cases newline : '\n' ∈ name.toList
  · rw [if_pos newline, List.nil_append, sectionNames_openingRow_of_newline newline unquoted]
  · have indent : stageIndent.foldl advance 0 = 0 := by decide
    have closing : [' ', '\x7b', '\n'].foldl advance 0 = 0 := by decide
    have named : name.toList ≠ [] := fun none => nonempty (String.toList_eq_nil_iff.mp none)
    rw [if_neg newline, cleanRow_openingRow newline, List.append_assoc, List.append_assoc,
      sectionNames_inert indent, sectionNames, sections_declaration named unquoted newline,
      sections_inert closing]
    rfl

/-- What is read of the names that are written: those on one line, as they are spelled. -/
def spelledNames (names : List String) : List String :=
  (names.filter fun name => '\n' ∉ name.toList).map fun name =>
    String.ofList (escape name.toList)

/-- What cleaning leaves of the rows of a stage without steps, but for the first. -/
def emptyBody : List Char :=
  rowText (codeRow "            steps \x7b") ++ (rowText echoRow ++ bodyClosing)

theorem cleanRow_stageRows_of_stepless {stage : Stage} (stepless : stage.steps = []) :
    (stageRows stage).flatMap cleanRow = cleanRow (openingRow stage.name) ++ emptyBody := by
  have echo : cleanRow echoRow = rowText echoRow :=
    cleanRow_of_mem_fixedRows _ (by simp [fixedRows])
  rw [cleanRow_stageRows, stepless, stepRows, List.flatMap_singleton, echo, emptyBody]

theorem foldl_advance_emptyBody : emptyBody.foldl advance 0 = 0 := by
  have steps : (rowText (codeRow "            steps \x7b")).foldl advance 0 = 0 := by decide
  have echo : (rowText echoRow).foldl advance 0 = 0 := by decide
  have closing : bodyClosing.foldl advance 0 = 0 := by decide
  rw [emptyBody, List.foldl_append, List.foldl_append, steps, echo, closing]

theorem sectionNames_stages {stages : List Stage} (stepless : ∀ stage ∈ stages, stage.steps = [])
    (names : ∀ stage ∈ stages,
      stage.name ≠ "" ∧ '\'' ∉ stage.name.toList ∧ '"' ∉ stage.name.toList) :
    (sectionNames ((stages.flatMap stageRows).flatMap cleanRow ++ scriptClosing)).map
      String.ofList = spelledNames (stages.map Stage.name) := by
  induction stages with
  | nil =>
    rw [List.flatMap_nil, List.flatMap_nil, List.nil_append]
    decide
  | cons stage stages ih =>
    obtain ⟨nonempty, plain⟩ := names stage (List.mem_cons_self ..)
    rw [List.flatMap_cons, List.flatMap_append,
      cleanRow_stageRows_of_stepless (stepless stage (List.mem_cons_self ..)), List.append_assoc,
      List.append_assoc,
      sectionNames_openingRow nonempty (forall_not_isQuote_iff.mpr plain),
      sectionNames_inert foldl_advance_emptyBody, List.map_append,
      ih (fun other mem => stepless other (List.mem_cons_of_mem _ mem))
        fun other mem => names other (List.mem_cons_of_mem _ mem)]
    by_cases newline : '\n' ∈ stage.name.toList
    · simp [spelledNames, newline]
    · simp [spelledNames, newline]

/-- Names without quotes are read as they were exactly when they have neither line ends nor
backslashes. -/
theorem spelledNames_eq_self_iff {names : List String}
    (plain : ∀ name ∈ names, '\'' ∉ name.toList ∧ '"' ∉ name.toList) :
    spelledNames names = names ↔ ∀ name ∈ names, '\n' ∉ name.toList ∧ '\\' ∉ name.toList := by
  have each {name : String} (mem : name ∈ names) :
      String.ofList (escape name.toList) = name ↔ '\\' ∉ name.toList := by
    have unquoted := forall_not_isQuote_iff.mpr (plain name mem)
    rw [← String.toList_inj, String.toList_ofList, escape_eq_self_iff_of_unquoted unquoted]
  constructor
  · intro same
    have lengths := congrArg List.length same
    rw [spelledNames, List.length_map] at lengths
    -- No name is dropped, so that each is compared with itself.
    have oneLine : ∀ name ∈ names, '\n' ∉ name.toList := fun name mem => by
      simpa using List.length_filter_eq_length_iff.mp lengths name mem
    have all : names.filter (fun name => '\n' ∉ name.toList) = names :=
      List.filter_eq_self.mpr fun name mem => by simpa using oneLine name mem
    rw [spelledNames, all] at same
    have kept := List.map_eq_map_iff.mp (same.trans (List.map_id names).symm)
    exact fun name mem => ⟨oneLine name mem, (each mem).mp (kept name mem)⟩
  · intro kept
    have all : names.filter (fun name => '\n' ∉ name.toList) = names :=
      List.filter_eq_self.mpr fun name mem => by simpa using (kept name mem).1
    rw [spelledNames, all]
    refine (List.map_congr_left fun name mem => ?_).trans (List.map_id names)
    exact (each mem).mpr (kept name mem).2

/-! ### Scripts without steps -/

section Stepless

variable {settings : JenkinsSettings} {pipeline : Pipeline}

theorem writable_of_stepless (label : ∀ label ∈ settings.agent, Harmless label)
    (stepless : pipeline.steps = [])
    (names : ∀ name ∈ pipeline.stageNames, ∀ word ∈ marks,
      Text.contains word name.toList = false) : Writable settings pipeline := by
  constructor
  · rw [stepless]
    exact fun _ mem => nomatch mem
  · rw [textsOf, stepless, List.flatMap_nil, List.append_nil]
    intro text mem
    rcases List.mem_append.mp mem with agent | name
    · exact (label text (Option.mem_toList.mp agent)).1
    · exact names text name

/-- The names of the script of a pipeline without steps. -/
theorem sectionNames_clean_write (writable : Writable settings pipeline)
    (label : ∀ label ∈ settings.agent, Harmless label) (stepless : pipeline.steps = [])
    (names : ∀ name ∈ pipeline.stageNames,
      name ≠ "" ∧ '\'' ∉ name.toList ∧ '"' ∉ name.toList) :
    (sectionNames (clean (write settings pipeline).toList)).map String.ofList =
      spelledNames pipeline.stageNames := by
  have first : scriptOpening.foldl advance 0 = 0 := by decide
  have second : stagesOpening.foldl advance 0 = 0 := by decide
  rw [writable.clean_write, sectionNames_inert first,
    sectionNames_inert (foldl_advance_agentRow label), sectionNames_inert second]
  apply sectionNames_stages
  · exact List.flatMap_eq_nil_iff.mp stepless
  · exact fun stage mem => names stage.name (List.mem_map.mpr ⟨stage, mem, rfl⟩)

end Stepless

/-- **Names of stages are not read as they were written.** No name with a quote is read from the
script of a pipeline without steps. If none of its names has a quote, those on one line are read,
with two backslashes for each of theirs, and the others are not. So all of them are read as they
were exactly when they have no quotes, no backslashes and no line ends. -/
theorem stageNames_round_trip (settings : JenkinsSettings) (pipeline : Pipeline)
    (label : ∀ label ∈ settings.agent, Harmless label) (staged : pipeline.stages ≠ [])
    (stepless : pipeline.steps = [])
    (names : ∀ name ∈ pipeline.stageNames,
      name ≠ "" ∧ ∀ word ∈ marks, Text.contains word name.toList = false) :
    let read := (Pipeline.parse .jenkinsfileDeclarative (write settings pipeline)).map
      Pipeline.stageNames
    (∀ others, read = .ok others → ∀ name ∈ others, '\'' ∉ name.toList ∧ '"' ∉ name.toList) ∧
      ((∀ name ∈ pipeline.stageNames, '\'' ∉ name.toList ∧ '"' ∉ name.toList) →
        read = if spelledNames pipeline.stageNames = [] then
            .error (.missingField "stage" "Jenkins pipeline script (no stages found)")
          else .ok (spelledNames pipeline.stageNames)) ∧
      (read = .ok pipeline.stageNames ↔ ∀ name ∈ pipeline.stageNames,
        '\'' ∉ name.toList ∧ '"' ∉ name.toList ∧ '\\' ∉ name.toList ∧ '\n' ∉ name.toList) := by
  intro read
  have writable := writable_of_stepless label stepless fun name mem => (names name mem).2
  have script : read =
      (readScript (String.ofList (clean (write settings pipeline).toList))).map
        Pipeline.stageNames := by
    rw [← writable.parse_write]
  have unquoted {others : List String} (found : read = .ok others) :
      ∀ name ∈ others, '\'' ∉ name.toList ∧ '"' ∉ name.toList := fun name mem =>
    forall_not_isQuote_iff.mp (unquoted_of_readScript (script ▸ found) name mem)
  have spelled (plain : ∀ name ∈ pipeline.stageNames, '\'' ∉ name.toList ∧ '"' ∉ name.toList) :
      read = if spelledNames pipeline.stageNames = [] then
          .error (.missingField "stage" "Jenkins pipeline script (no stages found)")
        else .ok (spelledNames pipeline.stageNames) := by
    have found := sectionNames_clean_write writable label stepless fun name mem =>
      ⟨(names name mem).1, plain name mem⟩
    rw [script, stageNames_readScript, String.toList_ofList, found]
  refine ⟨fun others => unquoted, spelled, ?_⟩
  constructor
  · intro same name mem
    have plain := unquoted same
    have kept : spelledNames pipeline.stageNames = pipeline.stageNames := by
      have found := (spelled plain).symm.trans same
      split at found
      · cases found
      · exact Except.ok.inj found
    have whole := (spelledNames_eq_self_iff plain).mp kept
    exact ⟨(plain name mem).1, (plain name mem).2, (whole name mem).2, (whole name mem).1⟩
  · intro kept
    have plain : ∀ name ∈ pipeline.stageNames, '\'' ∉ name.toList ∧ '"' ∉ name.toList :=
      fun name mem => ⟨(kept name mem).1, (kept name mem).2.1⟩
    have whole : spelledNames pipeline.stageNames = pipeline.stageNames :=
      (spelledNames_eq_self_iff plain).mpr fun name mem =>
        ⟨(kept name mem).2.2.2, (kept name mem).2.2.1⟩
    have some : pipeline.stageNames ≠ [] := by simpa [Pipeline.stageNames] using staged
    rw [spelled plain, whole, if_neg some]

/-- Stages with names that look like code. -/
def namedStages : Pipeline where
  variant := .gitHubActions
  stages := [{ name := "stage (1" }, { name := "a // b /*", jobs := [{ name := "a" }] },
    { name := ") stage(c) \t" }]

/-- Such names are read as they were. -/
theorem stageNames_round_trip_namedStages :
    (∀ label ∈ ({} : JenkinsSettings).agent, Harmless label) ∧ namedStages.stages ≠ [] ∧
      namedStages.steps = [] ∧
      (∀ name ∈ namedStages.stageNames,
        name ≠ "" ∧ ∀ word ∈ marks, Text.contains word name.toList = false) ∧
      (Pipeline.parse .jenkinsfileDeclarative (write {} namedStages)).map Pipeline.stageNames =
        .ok namedStages.stageNames := by
  have label : ∀ label ∈ ({} : JenkinsSettings).agent, Harmless label := nofun
  have staged : namedStages.stages ≠ [] := List.cons_ne_nil _ _
  have stepless : namedStages.steps = [] := rfl
  have names : ∀ name ∈ namedStages.stageNames,
      name ≠ "" ∧ ∀ word ∈ marks, Text.contains word name.toList = false := by decide
  refine ⟨label, staged, stepless, names, ?_⟩
  refine (stageNames_round_trip {} namedStages label staged stepless names).2.2.mpr ?_
  decide

/-- A name with a quote is not read. -/
theorem not_stageNames_round_trip :
    ¬∀ pipeline : Pipeline, pipeline.stages ≠ [] → pipeline.steps = [] →
      (∀ name ∈ pipeline.stageNames,
        name ≠ "" ∧ ∀ word ∈ marks, Text.contains word name.toList = false) →
      (Pipeline.parse .jenkinsfileDeclarative (write {} pipeline)).map Pipeline.stageNames =
        .ok pipeline.stageNames := by
  intro kept
  let quoted : Pipeline := { variant := .jenkins, stages := [{ name := "it's" }, { name := "b" }] }
  have names : ∀ name ∈ quoted.stageNames,
      name ≠ "" ∧ ∀ word ∈ marks, Text.contains word name.toList = false := by decide
  have same := kept quoted (List.cons_ne_nil _ _) rfl names
  have writable : Writable {} quoted :=
    writable_of_stepless nofun rfl fun name mem => (names name mem).2
  rw [writable.parse_write] at same
  have unquoted := unquoted_of_readScript same "it's" (List.mem_cons_self ..)
  exact absurd (unquoted '\'') (by decide)

end CiTranslate.Jenkins

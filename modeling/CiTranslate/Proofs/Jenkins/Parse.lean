import CiTranslate.Proofs.Groovy.Declaration
import CiTranslate.Source

/-!
What Jenkins texts are read as.

Scripts and documents have nothing in common but the stages that they are read into. A script
declares a stage with a name that is not empty (`wellFormed_of_readScript`), and a document is
given up at the first stage without one (`wellFormed_of_readStages`). Either way there is a stage,
and each has one job, which is named after it.
-/

namespace CiTranslate.Jenkins

/-- The pipelines of scripts and documents of Jenkins. -/
structure WellFormed (pipeline : Pipeline) : Prop where
  variant : pipeline.variant = .jenkins
  staged : pipeline.stages ≠ []
  /-- Every stage has a name, and one job with its steps. -/
  stages : ∀ stage ∈ pipeline.stages, stage.name ≠ "" ∧ ∃ steps, stage = stageOf stage.name steps

theorem stageOf_wellFormed {name : String} (named : name ≠ "") (steps : List Step) :
    (stageOf name steps).name ≠ "" ∧
      ∃ others, stageOf name steps = stageOf (stageOf name steps).name others :=
  ⟨named, steps, rfl⟩

/-! ### Scripts -/

theorem wellFormed_of_readScript {script : String} {pipeline : Pipeline}
    (read : readScript script = .ok pipeline) : WellFormed pipeline := by
  unfold readScript at read
  split at read
  · cases read
  · next some =>
    cases read
    refine ⟨rfl, by simpa using some, fun stage mem => ?_⟩
    obtain ⟨declared, found, rfl⟩ := List.mem_map.mp mem
    obtain ⟨⟨name, body⟩, listed, rfl⟩ := List.mem_map.mp found
    obtain ⟨call, rfl⟩ := Groovy.exists_call_of_mem_sections listed
    have named : String.ofList call.name ≠ "" := fun empty =>
      call.named (by simpa using congrArg String.toList empty)
    exact stageOf_wellFormed named _

/-! ### Documents -/

theorem exists_of_readStage {number : Nat} {node : Node} {stage : Stage}
    (read : readStage number node = .ok stage) :
    ∃ name steps, name ≠ "" ∧ stage = stageOf name steps := by
  unfold readStage at read
  split at read
  · cases read
  · next name _ =>
    split at read
    · cases read
    · next named =>
      refine ⟨name, _, ?_, (Except.ok.inj read).symm⟩
      rintro rfl
      exact named rfl

/-- All stages are read, or none. -/
theorem wellFormed_of_readStages {number : Nat} {nodes : List Node} {stages : List Stage}
    (read : readStages number nodes = .ok stages) :
    stages.length = nodes.length ∧
      ∀ stage ∈ stages, stage.name ≠ "" ∧ ∃ steps, stage = stageOf stage.name steps := by
  induction nodes generalizing number stages with
  | nil =>
    cases read
    exact ⟨rfl, fun _ mem => nomatch mem⟩
  | cons node nodes ih =>
    rw [readStages] at read
    split at read
    · cases read
    · next stage first =>
      cases rest : readStages (number + 1) nodes with
      | error error =>
        rw [rest] at read
        cases read
      | ok others =>
        rw [rest] at read
        cases read
        obtain ⟨lengths, all⟩ := ih rest
        obtain ⟨name, steps, named, rfl⟩ := exists_of_readStage first
        refine ⟨congrArg (· + 1) lengths, fun other mem => ?_⟩
        rcases List.mem_cons.mp mem with rfl | later
        · exact stageOf_wellFormed named steps
        · exact all other later

theorem wellFormed_of_readDocument {document : Node} {pipeline : Pipeline}
    (read : readDocument document = .ok pipeline) : WellFormed pipeline := by
  unfold readDocument at read
  split at read
  · next entry entries _ =>
    split at read
    · cases read
    · next listed =>
      cases result : readStages 1 ((Node.mapping (entry :: entries)).itemsAt "stages") with
      | error error =>
        rw [result] at read
        cases read
      | ok stages =>
        rw [result] at read
        cases read
        obtain ⟨lengths, all⟩ := wellFormed_of_readStages result
        refine ⟨rfl, fun empty => ?_, all⟩
        rw [show stages = [] from empty] at lengths
        exact listed (List.length_eq_zero_iff.mp lengths.symm)
  · cases read

/-! ### Texts -/

/-- A payload is a document or a script. -/
theorem ofPayload_ne_pipeline (payload : Payload) (pipeline : Pipeline) :
    Source.ofPayload payload ≠ .ok (.pipeline pipeline) := by
  intro loaded
  cases payload with
  | yaml text =>
    unfold Source.ofPayload at loaded
    cases decoded : Node.decodeYaml text <;> simp [decoded, Except.map] at loaded
  | json text =>
    unfold Source.ofPayload at loaded
    cases decoded : Node.decodeJson text <;> simp [decoded, Except.map] at loaded
  | script text => cases loaded

theorem wellFormed_of_ofSource {dialect : Dialect} (jenkins : dialect.variant = .jenkins)
    {payload : Payload} {source : Source} (loaded : Source.ofPayload payload = .ok source)
    {pipeline : Pipeline} (read : Pipeline.ofSource dialect source = .ok pipeline) :
    WellFormed pipeline := by
  cases source with
  | pipeline ready => exact absurd loaded (ofPayload_ne_pipeline payload ready)
  | document root =>
    cases dialect with
    | jenkinsfileScripted => cases read
    | jenkinsfileDeclarative => exact wellFormed_of_readDocument read
    | _ => cases jenkins
  | script text =>
    change Pipeline.ofScript dialect text = .ok pipeline at read
    unfold Pipeline.ofScript at read
    split at read
    · exact wellFormed_of_readScript read
    · cases read

theorem wellFormed_of_parse {dialect : Dialect} (jenkins : dialect.variant = .jenkins)
    {text : String} {pipeline : Pipeline} (parsed : Pipeline.parse dialect text = .ok pipeline) :
    WellFormed pipeline := by
  unfold Pipeline.parse at parsed
  split at parsed
  · cases parsed
  · split at parsed
    · cases parsed
    · next loaded => exact wellFormed_of_ofSource jenkins loaded parsed

/-- **Texts of Jenkins are read in full or not at all.** What a script or a document is read as is
a pipeline of Jenkins with at least one stage, where every stage has a name and one job that is
named after it. All other texts are errors. -/
theorem parse_well_formed {dialect : Dialect} (jenkins : dialect.variant = .jenkins)
    (text : String) :
    (∃ pipeline, Pipeline.parse dialect text = .ok pipeline ∧ pipeline.variant = .jenkins ∧
      pipeline.stages ≠ [] ∧ ∀ stage ∈ pipeline.stages, stage.name ≠ "" ∧
        ∃ steps, stage.jobs = [{ name := stage.name ++ "_job", steps }]) ∨
    ∃ error, Pipeline.parse dialect text = .error error := by
  cases parsed : Pipeline.parse dialect text with
  | error error => exact .inr ⟨error, rfl⟩
  | ok pipeline =>
    obtain ⟨variant, staged, stages⟩ := wellFormed_of_parse jenkins parsed
    refine .inl ⟨pipeline, rfl, variant, staged, fun stage mem => ?_⟩
    obtain ⟨named, steps, shape⟩ := stages stage mem
    exact ⟨named, steps, congrArg Stage.jobs shape⟩

/-- A fenced script with a stage in a comment, and one without a name. -/
def fencedScript : String :=
  "Scripted:\n\x60\x60\x60Groovy \nnode \x7b // stage('no') \x7b\n  stage('') \x7b\x7d stage( \"A b\" ) \x7b sh 'stage(1)' \x7d\n\x7d\n\x60\x60\x60"

theorem parse_well_formed_fencedScript :
    Dialect.jenkinsfileScripted.variant = .jenkins ∧
      ∃ pipeline, Pipeline.parse .jenkinsfileScripted fencedScript = .ok pipeline ∧
        pipeline.variant = .jenkins ∧ pipeline.stages ≠ [] ∧
        ∀ stage ∈ pipeline.stages, stage.name ≠ "" ∧
          ∃ steps, stage.jobs = [{ name := stage.name ++ "_job", steps }] := by
  have read : (Pipeline.parse .jenkinsfileScripted fencedScript).toOption.isSome = true := by
    decide +kernel
  have jenkins : Dialect.jenkinsfileScripted.variant = .jenkins := rfl
  refine ⟨jenkins, ?_⟩
  rcases parse_well_formed jenkins fencedScript with found | ⟨error, failed⟩
  · exact found
  · rw [failed] at read
    cases read

end CiTranslate.Jenkins

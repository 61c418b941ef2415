import CiTranslate.Configuration
import CiTranslate.Error
import CiTranslate.Pipeline.Issue

/-!
Why a command fails: its message, a code that names the kind of failure, and advice.
-/

namespace CiTranslate

namespace Error

def code : Error → String
  | .emptyInput => "pipeshift::empty_input"
  | .decode _ => "pipeshift::decode"
  | .missingField _ _ => "pipeshift::missing_field"
  | .unsupportedDialect _ => "pipeshift::unsupported_dialect"
  | .misfit _ => "pipeshift::structural_violation"
  | .variantMismatch _ _ => "pipeshift::type_mismatch"

/-- The dialects in the order in which they are advised. -/
def advisedDialects : List Dialect :=
  [.azurePipelines, .githubActions, .gitlabCi, .jenkinsfileScripted, .jenkinsfileDeclarative,
    .bamboo, .circleci, .codepipeline]

def advice? : Error → Option String
  | .emptyInput => some "Provide pipeline text; fences and blank lines are stripped before parsing"
  | .decode _ => some "Check indentation and quoting around the reported position"
  | .missingField _ _ => none
  | .unsupportedDialect _ =>
    some ("Supported types: " ++ ", ".intercalate (advisedDialects.map Dialect.tag))
  | .misfit _ => none
  | .variantMismatch _ _ => some "Use Pipeline::retarget to move a pipeline between variants"

end Error

namespace CommandLine

inductive Failure where
  /-- A file that cannot be read for a purpose. -/
  | file (purpose path : String)
  | input
  | configuration (error : Toml.Error)
  | unknownDialect
  /-- A pipeline that does not pass the check. -/
  | invalid (issues : List Issue)
  | pipeline (error : CiTranslate.Error)

namespace Failure

def message : Failure → String
  | .file purpose path => s!"Failed to {purpose} {path}"
  | .input => "Failed to read pipeline text from stdin"
  | .configuration error => s!"Configuration parsing failed: {error.message}"
  | .unknownDialect => "Could not determine the pipeline format"
  | .invalid issues =>
    let lines := "\n".intercalate (issues.map Issue.message)
    s!"Pipeline failed validation with {issues.length} issue(s):\n{lines}"
  | .pipeline error => error.message

def code : Failure → String
  | .file _ _ => "pipeshift::cli::file_error"
  | .input => "pipeshift::cli::stdin_error"
  | .configuration _ => "pipeshift::cli::config_parse_error"
  | .unknownDialect => "pipeshift::cli::unknown_format"
  | .invalid _ => "pipeshift::cli::validation_failed"
  | .pipeline error => error.code

def advice? : Failure → Option String
  | .file _ _ => some "Check file permissions and ensure the path exists"
  | .input => none
  | .configuration _ => some "Known tables are [classify] and [emit.<target>]"
  | .unknownDialect =>
    some "Pass --from <tag> explicitly; run 'pipeshift formats' to list tags"
  | .invalid _ => none
  | .pipeline error => error.advice?

/-- What is told of a failure. -/
def report (failure : Failure) : String :=
  let advice := (failure.advice?.map fun advice => s!"  help: {advice}\n").getD ""
  s!"Error: {failure.code}\n\n  × {failure.message}\n{advice}"

end Failure

end CommandLine

end CiTranslate

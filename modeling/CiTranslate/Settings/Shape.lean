import CiTranslate.Settings
import CiTranslate.Shape

/-!
Settings as structured data: their shape, with the defaults of absent fields, and both
directions.
-/

namespace CiTranslate

def textOfOption (text : Option String) : Data := (text.map Data.text).getD .null

/-- A closed record of which every field has a default. -/
def settingsShape (name : String) (fields : List (String × Shape × Data)) : Shape :=
  .record name true (fields.map fun (key, shape, default) => (key, shape, some default))

namespace AzureLayout

def shape : Shape := .choice (all.map name)

end AzureLayout

namespace AzureSettings

def toData (settings : AzureSettings) : Data :=
  .record [("layout", .text settings.layout.name), ("branch", .text settings.branch)]

def ofData (data : Data) : AzureSettings where
  layout := ((data.textField? "layout").bind AzureLayout.ofName?).getD .stages
  branch := (data.textField? "branch").getD ""

def shape : Shape :=
  settingsShape "AzureEmitter"
    [("layout", AzureLayout.shape, .text "stages"), ("branch", .text, .text "main")]

end AzureSettings

namespace GitHubSettings

def toData (settings : GitHubSettings) : Data :=
  .record [("workflow_name", .text settings.workflowName), ("runs_on", .text settings.runsOn)]

def ofData (data : Data) : GitHubSettings where
  workflowName := (data.textField? "workflow_name").getD ""
  runsOn := (data.textField? "runs_on").getD ""

def shape : Shape :=
  settingsShape "GitHubEmitter"
    [("workflow_name", .text, .text "CI"), ("runs_on", .text, .text "ubuntu-latest")]

end GitHubSettings

namespace GitLabSettings

def toData (settings : GitLabSettings) : Data := .record [("image", textOfOption settings.image)]

def ofData (data : Data) : GitLabSettings := ⟨data.textField? "image"⟩

def shape : Shape := settingsShape "GitLabEmitter" [("image", .optional .text, .null)]

end GitLabSettings

namespace JenkinsSettings

def toData (settings : JenkinsSettings) : Data := .record [("agent", textOfOption settings.agent)]

def ofData (data : Data) : JenkinsSettings := ⟨data.textField? "agent"⟩

def shape : Shape := settingsShape "JenkinsEmitter" [("agent", .optional .text, .null)]

end JenkinsSettings

namespace BambooSettings

def toData (settings : BambooSettings) : Data :=
  .record [("project_key", .text settings.projectKey), ("plan_key", .text settings.planKey),
    ("plan_name", .text settings.planName)]

def ofData (data : Data) : BambooSettings where
  projectKey := (data.textField? "project_key").getD ""
  planKey := (data.textField? "plan_key").getD ""
  planName := (data.textField? "plan_name").getD ""

def shape : Shape :=
  settingsShape "BambooEmitter"
    [("project_key", .text, .text "PROJ"), ("plan_key", .text, .text "PLAN"),
      ("plan_name", .text, .text "Pipeline")]

end BambooSettings

namespace CircleCiSettings

def toData (settings : CircleCiSettings) : Data :=
  .record [("image", .text settings.image), ("workflow", .text settings.workflow)]

def ofData (data : Data) : CircleCiSettings where
  image := (data.textField? "image").getD ""
  workflow := (data.textField? "workflow").getD ""

def shape : Shape :=
  settingsShape "CircleCiEmitter"
    [("image", .text, .text "cimg/base:stable"), ("workflow", .text, .text "main")]

end CircleCiSettings

namespace Settings

def toData (settings : Settings) : Data :=
  .record
    [("azure", settings.azure.toData), ("github", settings.github.toData),
      ("gitlab", settings.gitlab.toData), ("jenkins", settings.jenkins.toData),
      ("bamboo", settings.bamboo.toData), ("circleci", settings.circleci.toData)]

/-- The settings of data in full form. -/
def ofData (data : Data) : Settings :=
  let part (key : String) : Data := (data.field? key).getD .null
  { azure := .ofData (part "azure")
    github := .ofData (part "github")
    gitlab := .ofData (part "gitlab")
    jenkins := .ofData (part "jenkins")
    bamboo := .ofData (part "bamboo")
    circleci := .ofData (part "circleci") }

def shape : Shape :=
  let defaults : Settings := {}
  settingsShape "EmitOptions"
    [("azure", AzureSettings.shape, defaults.azure.toData),
      ("github", GitHubSettings.shape, defaults.github.toData),
      ("gitlab", GitLabSettings.shape, defaults.gitlab.toData),
      ("jenkins", JenkinsSettings.shape, defaults.jenkins.toData),
      ("bamboo", BambooSettings.shape, defaults.bamboo.toData),
      ("circleci", CircleCiSettings.shape, defaults.circleci.toData)]

end Settings

end CiTranslate

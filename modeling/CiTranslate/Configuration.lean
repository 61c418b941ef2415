import CiTranslate.Classification
import CiTranslate.Settings.Shape
import CiTranslate.Toml.Typed

/-!
Configurations: how texts are classified, and the settings for documents that are written.
They are kept in TOML texts, in which every field may be left out.
-/

namespace CiTranslate

structure Configuration where
  policy : Policy := .permissive
  settings : Settings := {}
  deriving DecidableEq, Repr, Inhabited

def Policy.shape : Shape := .choice (Policy.all.map Policy.name)

namespace Configuration

def toData (configuration : Configuration) : Data :=
  .record [("classify", .record [("policy", .text configuration.policy.name)]),
    ("emit", configuration.settings.toData)]

/-- The configuration of data in full form. -/
def ofData (data : Data) : Configuration where
  policy := (((data.field? "classify").bind (Data.textField? "policy")).bind Policy.ofName?).getD
    .permissive
  settings := .ofData ((data.field? "emit").getD .null)

def classifyShape : Shape :=
  settingsShape "ClassifySection" [("policy", Policy.shape, .text Policy.permissive.name)]

def shape : Shape :=
  settingsShape "Config"
    [("classify", classifyShape, .record [("policy", .text Policy.permissive.name)]),
      ("emit", Settings.shape, ({} : Settings).toData)]

/-- The configuration of a TOML text. -/
def read (text : String) : Except Toml.Error Configuration :=
  (Toml.readAs shape text).map ofData

end Configuration

end CiTranslate

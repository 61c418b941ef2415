import CiTranslate.Emitter

/-!
Emitters by the name of their format. Of emitters with one name the last one counts. The
tag of any dialect also names the emitter of its CI system.
-/

namespace CiTranslate

structure Registry where
  emitters : Fields Emitter := []

namespace Registry

def register (emitter : Emitter) (registry : Registry) : Registry :=
  ⟨Fields.put emitter.format emitter registry.emitters⟩

/-- The emitters of all CI systems. -/
def builtin (settings : Settings) : Registry :=
  Variant.all.foldl (fun registry variant => registry.register (settings.emitter variant)) {}

/-- The name of the format that a dialect is written in. -/
def nativeFormat? (name : String) : Option String :=
  (Dialect.ofTag? name).map fun dialect => dialect.variant.defaultDialect.tag

/-- The emitter of a name. -/
def get? (name : String) (registry : Registry) : Option Emitter :=
  (Fields.get? name registry.emitters).or
    ((nativeFormat? name).bind (Fields.get? · registry.emitters))

def has (name : String) (registry : Registry) : Bool := (registry.get? name).isSome

def size (registry : Registry) : Nat := registry.emitters.length

def isEmpty (registry : Registry) : Bool := registry.emitters.isEmpty

/-- The emitters in the order of their names. -/
def sorted (registry : Registry) : List Emitter :=
  (registry.emitters.mergeSort fun x y => decide (x.1 ≤ y.1)).map Prod.snd

/-- The names of the formats, in order. -/
def formats (registry : Registry) : List String :=
  registry.emitters.names.mergeSort fun x y => decide (x ≤ y)

/-- What is told of the emitters, in the order of their names. -/
def info (registry : Registry) : List EmitterInfo := registry.sorted.map Emitter.info

/-- Writes a pipeline in a format. -/
def emit (format : String) (pipeline : Pipeline) (registry : Registry) : Except Error String :=
  match registry.get? format with
  | some emitter => emitter.write pipeline
  | none => .error (.unsupportedDialect format)

end Registry

end CiTranslate

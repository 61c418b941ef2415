import CiTranslate.Proofs.Registry
import Mathlib.Data.String.Basic

/-!
Registries after any run of registrations.

An emitter replaces the one that has its name, so that a registry only knows the last emitter of
every name (`get?_emitters_registerAll`). Each emitter stands under its own name, and no name twice
(`Filed`), which is kept by every registration; the listings by name are read off from that.
-/

namespace CiTranslate.Registry

/-- The registries that a run of registrations starts from. -/
inductive Start where
  | empty
  | builtin (settings : Settings)

namespace Start

def registry : Start → Registry
  | empty => {}
  | builtin settings => .builtin settings

/-- The emitters that stand in a registry from the start. -/
def emitters : Start → List Emitter
  | empty => []
  | builtin settings => Variant.all.map settings.emitter

end Start

/-- Registers emitters one after the other. -/
def registerAll (emitters : List Emitter) (registry : Registry) : Registry :=
  emitters.foldl (fun registry emitter => registry.register emitter) registry

/-- The last emitter of a name. -/
def lastNamed? (name : String) (emitters : List Emitter) : Option Emitter :=
  emitters.reverse.find? (·.format = name)

/-- Every emitter stands under its own name, and no name stands twice. -/
structure Filed (registry : Registry) : Prop where
  distinct : (Fields.names registry.emitters).Nodup
  own : ∀ field ∈ registry.emitters, field.1 = field.2.format

variable {registry : Registry}

/-! ### Runs of registrations -/

theorem registerAll_cons (emitter : Emitter) (emitters : List Emitter) (registry : Registry) :
    registerAll (emitter :: emitters) registry =
      registerAll emitters (registry.register emitter) := rfl

theorem registerAll_append (emitters more : List Emitter) (registry : Registry) :
    registerAll (emitters ++ more) registry = registerAll more (registerAll emitters registry) :=
  List.foldl_append

/-- A run from any start is a run from the empty registry. -/
theorem Start.registry_eq (start : Start) : start.registry = registerAll start.emitters {} := by
  cases start with
  | empty => rfl
  | builtin settings => rfl

theorem lastNamed?_cons (name : String) (emitter : Emitter) (emitters : List Emitter) :
    lastNamed? name (emitter :: emitters) =
      (lastNamed? name emitters).or (if emitter.format = name then some emitter else none) := by
  rw [lastNamed?, List.reverse_cons, List.find?_append, ← lastNamed?]
  refine congrArg (Option.or _) ?_
  by_cases own : emitter.format = name
  · simp [own]
  · simp [own]

/-- Under a name stands the last emitter of the run that has it, or what stood there before. -/
theorem get?_emitters_registerAll (name : String) (emitters : List Emitter)
    (registry : Registry) :
    Fields.get? name (registerAll emitters registry).emitters =
      (lastNamed? name emitters).or (Fields.get? name registry.emitters) := by
  induction emitters generalizing registry with
  | nil => rfl
  | cons emitter emitters ih =>
    rw [registerAll_cons, ih, lastNamed?_cons, Option.or_assoc, register, Fields.get?_put]
    split <;> rfl

theorem mem_names_registerAll {name : String} {emitters : List Emitter} :
    name ∈ Fields.names (registerAll emitters registry).emitters ↔
      (∃ emitter ∈ emitters, emitter.format = name) ∨ name ∈ Fields.names registry.emitters := by
  induction emitters generalizing registry with
  | nil => simp [registerAll]
  | cons emitter emitters ih =>
    rw [registerAll_cons, ih, register, Fields.mem_names_put]
    simp only [List.mem_cons, exists_eq_or_imp, @eq_comm _ name]
    exact or_left_comm.trans or_assoc.symm

theorem filed_empty : Filed {} where
  distinct := List.nodup_nil
  own := fun _ mem => nomatch mem

theorem Filed.register (filed : Filed registry) (emitter : Emitter) :
    Filed (registry.register emitter) where
  distinct := Fields.nodup_names_put filed.distinct
  own := by
    intro field mem
    rcases Fields.mem_put mem with rfl | old
    · rfl
    · exact filed.own field old

theorem Filed.registerAll (filed : Filed registry) (emitters : List Emitter) :
    Filed (registerAll emitters registry) := by
  induction emitters generalizing registry with
  | nil => exact filed
  | cons emitter emitters ih => exact ih (filed.register emitter)

/-! ### Listings -/

theorem perm_formats (registry : Registry) :
    registry.formats.Perm (Fields.names registry.emitters) :=
  List.mergeSort_perm _ _

/-- The names are listed in the order of the emitters that stand under them. -/
theorem formats_eq (registry : Registry) :
    registry.formats =
      (registry.emitters.mergeSort fun x y => decide (x.1 ≤ y.1)).map Prod.fst := by
  symm
  apply List.map_mergeSort
  intro x _ y _
  rfl

theorem mem_formats {name : String} :
    name ∈ registry.formats ↔ name ∈ Fields.names registry.emitters :=
  (perm_formats registry).mem_iff

theorem length_formats (registry : Registry) : registry.formats.length = registry.size := by
  rw [(perm_formats registry).length_eq, Fields.names, List.length_map, size]

/-- The names are listed in their order, each once. -/
theorem Filed.pairwise_formats (filed : Filed registry) : registry.formats.Pairwise (· < ·) := by
  have ordered : registry.formats.Pairwise (· ≤ ·) := by
    have sorted : registry.formats.Pairwise fun x y => decide (x ≤ y) = true := by
      apply List.pairwise_mergeSort
      · intro x y z first second
        exact decide_eq_true (le_trans (of_decide_eq_true first) (of_decide_eq_true second))
      · intro x y
        simpa using le_total x y
    exact sorted.imp of_decide_eq_true
  have distinct : registry.formats.Nodup := (perm_formats registry).nodup_iff.mpr filed.distinct
  exact (ordered.and distinct).imp fun both => lt_of_le_of_ne both.1 both.2

/-- The emitters that are told of are those that are found under the names. -/
theorem Filed.map_info (filed : Filed registry) :
    registry.info.map some =
      registry.formats.map fun name => (Fields.get? name registry.emitters).map Emitter.info := by
  rw [formats_eq, info, sorted, List.map_map, List.map_map, List.map_map]
  refine List.map_congr_left fun field mem => ?_
  have listed : field ∈ registry.emitters := (List.mergeSort_perm ..).mem_iff.mp mem
  have found := Fields.get?_eq_some_of_mem filed.distinct listed
  simp only [Function.comp_apply, found, Option.map_some]

/-- There is a row for every name. -/
theorem Filed.map_format_info (filed : Filed registry) :
    registry.info.map EmitterInfo.format = registry.formats := by
  rw [formats_eq, info, sorted, List.map_map, List.map_map]
  refine List.map_congr_left fun field mem => ?_
  exact (filed.own field ((List.mergeSort_perm ..).mem_iff.mp mem)).symm

/-! ### Histories -/

/-- The emitters that stand in a registry from the start are the first of its history. -/
theorem registerAll_start (start : Start) (emitters : List Emitter) :
    registerAll emitters start.registry = registerAll (start.emitters ++ emitters) {} := by
  rw [start.registry_eq, registerAll_append]

/-- Under a name stands the last emitter of the history that has it. -/
theorem get?_emitters_history (name : String) (history : List Emitter) :
    Fields.get? name (registerAll history {}).emitters = lastNamed? name history := by
  rw [get?_emitters_registerAll]
  exact Option.or_none

/-- **A registry is a map in which the last registration wins.** Whatever is registered, and
whether or not the emitters of all CI systems were there before, the formats are the names
that were registered, each once and in order, and there is a row for each of them, that of its last
emitter. A name has the last emitter that was registered under it, or else, if it is the tag of a
dialect, the last one under the native tag of that dialect, or else none. That emitter is asked
whether a pipeline can be written, and writes it; where there is none, the name is reported as it
is. -/
theorem last_registration_wins (start : Start) (emitters : List Emitter) :
    let registry := registerAll emitters start.registry
    let history := start.emitters ++ emitters
    registry.formats.Pairwise (· < ·) ∧
      (∀ name, name ∈ registry.formats ↔ ∃ emitter ∈ history, emitter.format = name) ∧
      registry.size = registry.formats.length ∧
      registry.isEmpty = registry.formats.isEmpty ∧
      registry.info.map EmitterInfo.format = registry.formats ∧
      registry.info.map some =
        (registry.formats.map fun name => (lastNamed? name history).map Emitter.info) ∧
      ∀ name,
        let choice := (lastNamed? name history).or ((Dialect.ofTag? name).bind fun dialect =>
          lastNamed? dialect.variant.defaultDialect.tag history)
        registry.get? name = choice ∧
          registry.has name = choice.isSome ∧
          (∀ pipeline, (registry.get? name).map (fun emitter => emitter.validate pipeline) =
            choice.map fun emitter => emitter.validate pipeline) ∧
          ∀ pipeline, registry.emit name pipeline =
            match choice with
            | none => .error (.unsupportedDialect name)
            | some emitter =>
              match emitter.validate pipeline with
              | .ok () => emitter.emit pipeline
              | .error error => .error error := by
  intro registry history
  have built : registry = registerAll history {} := registerAll_start start emitters
  have filed : Filed registry := built ▸ filed_empty.registerAll history
  have found (name : String) : Fields.get? name registry.emitters = lastNamed? name history :=
    built ▸ get?_emitters_history name history
  refine ⟨filed.pairwise_formats, ?_, (length_formats registry).symm, ?_, filed.map_format_info,
    ?_, ?_⟩
  · intro name
    rw [mem_formats, built, mem_names_registerAll]
    exact or_iff_left List.not_mem_nil
  · rw [Bool.eq_iff_iff, isEmpty, List.isEmpty_iff_length_eq_zero, List.isEmpty_iff_length_eq_zero,
      length_formats, size]
  · rw [filed.map_info]
    simp only [found]
  · intro name choice
    have chosen : registry.get? name = choice := by
      rw [get?, found, nativeFormat?, Option.bind_map]
      simp only [found]
      rfl
    refine ⟨chosen, ?_, ?_, ?_⟩
    · rw [has, chosen]
    · intro pipeline
      rw [chosen]
    · intro pipeline
      rw [emit, chosen]
      cases choice <;> rfl

end CiTranslate.Registry

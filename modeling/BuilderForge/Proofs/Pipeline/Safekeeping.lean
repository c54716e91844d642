import BuilderForge.Proofs.Pipeline.History
import BuilderForge.Proofs.Shape.Safety

/-!
# What the stages report and remember

The keys and values of a stage are kept from run to run, so they must not hold
anything that refers to the front end's objects. They never do: the types
they are of are safe, so whatever a run reports, be it live or removed, may be
kept, and so may everything that is built of such values
(`nothing_foreign_cached`).
-/

namespace BuilderForge

/-- **A cache may keep the report**: the key and the value of each of its
outputs, removed ones included. -/
def StageReport.MayBeKept {κ ω : Type} [Structural κ] [Structural ω] (report : StageReport κ ω) :
    Prop :=
  ∀ output ∈ report.outputs,
    (shape output.key).isCacheSafe = true ∧ (shape output.value).isCacheSafe = true

/-- A report with keys and values of safe types may be kept. -/
theorem StageReport.mayBeKept {κ ω : Type} [Structural κ] [Structural ω] [SafeType κ] [SafeType ω]
    (report : StageReport κ ω) : report.MayBeKept := fun output _ =>
  ⟨isCacheSafe_shape output.key, isCacheSafe_shape output.value⟩

/-- **Nothing foreign is ever kept.** After every history, whatever the next
run is, the reports of its three stages may be kept. And an optional value, a
pair or a sequence of values of whatever types may be kept exactly if all that
is in it may. -/
theorem Pipeline.nothing_foreign_cached :
    (∀ (config : GeneratorConfig) (history : List Request) (request : Request),
      let run := (((Pipeline.new config).after history).serve request).2
      run.extraction.MayBeKept ∧ run.merge.MayBeKept ∧ run.emission.MayBeKept) ∧
      (∀ (α : Type) [Structural α] (value : Option α),
        (shape value).isCacheSafe = true ↔ ∀ a ∈ value, (shape a).isCacheSafe = true) ∧
      (∀ (α β : Type) [Structural α] [Structural β] (pair : α × β),
        (shape pair).isCacheSafe = true ↔
          (shape pair.1).isCacheSafe = true ∧ (shape pair.2).isCacheSafe = true) ∧
      ∀ (α : Type) [Structural α] (items : List α),
        (shape items).isCacheSafe = true ↔ ∀ a ∈ items, (shape a).isCacheSafe = true := by
  refine ⟨fun config history request => ?_, fun _ _ _ => isCacheSafe_option,
    fun _ _ _ _ _ => isCacheSafe_pair, fun _ _ _ => isCacheSafe_list⟩
  exact ⟨StageReport.mayBeKept _, StageReport.mayBeKept _, StageReport.mayBeKept _⟩

end BuilderForge

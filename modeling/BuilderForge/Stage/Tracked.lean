import BuilderForge.Stage.Settlement
import BuilderForge.Stage.Sweep

/-!
# Tracked stages

The inputs of a tracked stage cannot be compared, so all its answers are
computed, in every run. The stage remembers the outputs, and reports how
those of a run differ from the remembered ones. A computation may drop its
key by giving no value.
-/

namespace BuilderForge

open Std

variable {κ ι ω : Type}

/-- What one run of a stage comes to. -/
structure StageRun (σ κ ι ω : Type) where
  /-- The stage after the run. -/
  stage : σ
  report : StageReport κ ω
  /-- The inputs whose answers were computed, in order. -/
  computed : List ι

/-- A stage that remembers outputs by key. -/
structure TrackedStage (κ ω : Type) [Ord κ] where
  name : StageName
  /-- The remembered outputs. -/
  previous : Table κ ω

namespace TrackedStage

variable [Ord κ]

/-- A stage that has not run yet. -/
def empty (name : StageName) : TrackedStage κ ω := ⟨name, ∅⟩

/-- The results of a sweep; no answer to a tracked job is known before. -/
def results (outcomes : List (Outcome κ ι (Option ω))) : List (Finished κ ω) :=
  outcomes.filterMap fun outcome =>
    outcome.answer.map fun answer => ⟨outcome.job.key, answer.value, false⟩

variable [TransOrd κ] [DecidableEq ω]

/-- Runs the stage on `jobs`, beginning with the flag up or down. -/
def run (stage : TrackedStage κ ω) (jobs : List (Job κ ι)) (compute : ι → Option ω)
    (flag : Bool) : StageRun (TrackedStage κ ω) κ ι ω :=
  let outcomes := sweep (fun _ => none) compute flag jobs
  let results := results outcomes
  let complete := !flagAfter flag outcomes
  { stage := { stage with previous := settledTable stage.previous results complete }
    report :=
      { stage := stage.name
        outputs := settledOutputs stage.previous results complete
        hits := 0
        misses := results.length
        complete }
    computed := Outcome.computedInputs outcomes }

end TrackedStage

end BuilderForge

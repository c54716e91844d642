import BuilderForge.Stage.Tracked

/-!
# Memo stages

A memo stage looks every input up first. An input that was answered before
is answered from the memo, whatever its key, also when the run is called
off; only the others are computed. After a complete run the memo holds the
inputs of that run and no others; a run that is called off only adds to it.
-/

namespace BuilderForge

open Std

variable {κ ι ω : Type}

/-- A stage that remembers answers by input and outputs by key. -/
structure MemoStage (κ ι ω : Type) [Ord κ] [Ord ι] where
  name : StageName
  /-- The remembered answers. -/
  memo : Table ι ω
  /-- The remembered outputs. -/
  previous : Table κ ω

namespace MemoStage

variable [Ord κ] [Ord ι]

/-- A stage that has not run yet. -/
def empty (name : StageName) : MemoStage κ ι ω := ⟨name, ∅, ∅⟩

/-- The results of a sweep. -/
def results (outcomes : List (Outcome κ ι ω)) : List (Finished κ ω) :=
  outcomes.filterMap fun outcome =>
    outcome.answer.map fun answer => ⟨outcome.job.key, some answer.value, answer.recalled⟩

/-- The answers of a sweep with their inputs. -/
def answers (outcomes : List (Outcome κ ι ω)) : List (ι × ω) :=
  outcomes.filterMap fun outcome =>
    outcome.answer.map fun answer => (outcome.job.input, answer.value)

variable [TransOrd κ] [TransOrd ι] [DecidableEq ω]

/-- The memo after a run that gave the given answers. -/
def settledMemo (memo : Table ι ω) (answers : List (ι × ω)) (complete : Bool) : Table ι ω :=
  (if complete then ∅ else memo).insertMany answers

/-- Runs the stage on `jobs`, beginning with the flag up or down. -/
def run (stage : MemoStage κ ι ω) (jobs : List (Job κ ι)) (compute : ι → ω) (flag : Bool) :
    StageRun (MemoStage κ ι ω) κ ι ω :=
  let outcomes := sweep (stage.memo[·]?) compute flag jobs
  let results := results outcomes
  let complete := !flagAfter flag outcomes
  { stage :=
      { stage with
        memo := settledMemo stage.memo (answers outcomes) complete
        previous := settledTable stage.previous results complete }
    report :=
      { stage := stage.name
        outputs := settledOutputs stage.previous results complete
        hits := results.countP Finished.recalled
        misses := results.countP fun finished => !finished.recalled
        complete }
    computed := Outcome.computedInputs outcomes }

end MemoStage

end BuilderForge

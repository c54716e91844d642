import BuilderForge.Proofs.Stage.Answering
import BuilderForge.Stage.Memo
import Mathlib.Data.List.Induction

/-!
# Histories of a memo stage

A memo stage is called again and again, each time with its own items, its own
function and its own flag. Two things are read off a history later: the runs
since the last one to the end (`sinceComplete`), which are what the caches
are made of, and the last that was reported for a key (`lastReported`).
Both look at the reports alone, and not at the caches.
-/

namespace BuilderForge

open Std

variable {κ ι ω : Type}

/-- A call of a stage. -/
structure Call (κ ι ω : Type) where
  jobs : List (Job κ ι)
  compute : ι → ω
  /-- Whether the run is called off before it begins. -/
  flag : Bool

/-- No two items of the call share a key. -/
def Call.Distinct (call : Call κ ι ω) : Prop :=
  (call.jobs.map Job.key).Nodup

instance [DecidableEq κ] (call : Call κ ι ω) : Decidable call.Distinct :=
  inferInstanceAs (Decidable (List.Nodup _))

/-- A run in the past: the items and what was reported of them. -/
structure Served (κ ι ω : Type) where
  jobs : List (Job κ ι)
  report : StageReport κ ω

/-- The run finished the item, with the value. -/
def Served.Finishes (run : Served κ ι ω) (job : Job κ ι) (value : ω) : Prop :=
  job ∈ run.jobs ∧ ∃ output ∈ run.report.live, output.key = job.key ∧ output.value = value

/-- The last run to the end and the runs after it; all runs, if none went to
the end. -/
def sinceComplete (runs : List (Served κ ι ω)) : List (Served κ ι ω) :=
  runs.foldl (fun since run => if run.report.complete then [run] else since ++ [run]) []

/-- The last output that was reported for `key`. -/
def lastReported [DecidableEq κ] (runs : List (Served κ ι ω)) (key : κ) :
    Option (StageOutput κ ω) :=
  runs.foldl
    (fun last run => (run.report.outputs.find? fun output => output.key = key).or last) none

section Runs

variable {runs : List (Served κ ι ω)} {run : Served κ ι ω}

/-- A run to the end is the one that counts from then on. -/
theorem sinceComplete_concat_of_complete (h : run.report.complete = true) :
    sinceComplete (runs ++ [run]) = [run] := by
  simp [sinceComplete, h]

/-- A run that is called off is counted with those before it. -/
theorem sinceComplete_concat_of_cancelled (h : run.report.complete = false) :
    sinceComplete (runs ++ [run]) = sinceComplete runs ++ [run] := by
  simp [sinceComplete, h]

/-- What a run since the last one to the end did, the last run did, or one
before it, if the last run was called off. -/
theorem exists_sinceComplete_concat {P : Served κ ι ω → Prop} :
    (∃ r ∈ sinceComplete (runs ++ [run]), P r) ↔
      P run ∨ run.report.complete = false ∧ ∃ r ∈ sinceComplete runs, P r := by
  cases hcomplete : run.report.complete with
  | true => simp [sinceComplete_concat_of_complete hcomplete]
  | false =>
    rw [sinceComplete_concat_of_cancelled hcomplete]
    simp only [List.mem_append, List.mem_singleton, true_and]
    constructor
    · rintro ⟨r, hr | rfl, hP⟩
      · exact .inr ⟨r, hr, hP⟩
      · exact .inl hP
    · rintro (hP | ⟨r, hr, hP⟩)
      · exact ⟨run, .inr rfl, hP⟩
      · exact ⟨r, .inl hr, hP⟩

/-- The last report of a key is that of the last run, if there is one. -/
@[simp]
theorem lastReported_concat [DecidableEq κ] (key : κ) : lastReported (runs ++ [run]) key =
    (run.report.outputs.find? fun output => output.key = key).or (lastReported runs key) := by
  simp [lastReported]

end Runs

namespace MemoStage

variable [Ord κ] [Ord ι] [TransOrd κ] [TransOrd ι]

/-- The items of a call that the stage answers. -/
def answeredJobs (stage : MemoStage κ ι ω) (call : Call κ ι ω) : List (Job κ ι) :=
  answered (stage.memo[·]?) call.flag call.jobs

/-- The items of a call that the stage computes. -/
def begunJobs (stage : MemoStage κ ι ω) (call : Call κ ι ω) : List (Job κ ι) :=
  begun call.flag (pending (stage.memo[·]?) call.jobs)

/-- The answer of the stage to an item of a call. -/
def answerOf (stage : MemoStage κ ι ω) (call : Call κ ι ω) (job : Job κ ι) : Answer ω :=
  answerTo (stage.memo[·]?) call.compute job.input

variable [DecidableEq ω]

/-- The run of one call. -/
def serve (stage : MemoStage κ ι ω) (call : Call κ ι ω) : StageRun (MemoStage κ ι ω) κ ι ω :=
  stage.run call.jobs call.compute call.flag

/-- The stage after a history of calls. -/
def after (stage : MemoStage κ ι ω) (history : List (Call κ ι ω)) : MemoStage κ ι ω :=
  history.foldl (fun s call => (s.serve call).stage) stage

/-- The runs of a history of calls, in order. -/
def served (stage : MemoStage κ ι ω) : List (Call κ ι ω) → List (Served κ ι ω)
  | [] => []
  | call :: rest => ⟨call.jobs, (stage.serve call).report⟩ :: (stage.serve call).stage.served rest

variable (stage : MemoStage κ ι ω) (history : List (Call κ ι ω)) (call : Call κ ι ω)

@[simp]
theorem after_concat :
    stage.after (history ++ [call]) = ((stage.after history).serve call).stage := by
  simp [after]

@[simp]
theorem served_concat : stage.served (history ++ [call]) =
    stage.served history ++ [⟨call.jobs, ((stage.after history).serve call).report⟩] := by
  induction history generalizing stage with
  | nil => rfl
  | cons first rest ih =>
    rw [List.cons_append, served, ih, served, List.cons_append]
    rfl

/-- **What holds of a new stage, and is kept by every call, holds after every
history.** -/
theorem after_induction {P : Call κ ι ω → Prop}
    {motive : MemoStage κ ι ω → List (Served κ ι ω) → Prop} (hempty : motive stage [])
    (hserve : ∀ stage runs call, motive stage runs → P call →
      motive (stage.serve call).stage (runs ++ [⟨call.jobs, (stage.serve call).report⟩]))
    (hcalls : ∀ call ∈ history, P call) :
    motive (stage.after history) (stage.served history) := by
  induction history using List.reverseRecOn with
  | nil => exact hempty
  | append_singleton earlier last ih =>
    rw [after_concat, served_concat]
    have hearlier := ih fun call hcall => hcalls call (List.mem_append_left _ hcall)
    exact hserve _ _ last hearlier
      (hcalls last (List.mem_append_right _ (List.mem_singleton_self last)))

end MemoStage

end BuilderForge

import BuilderForge.Proofs.Stage.Answering
import BuilderForge.Proofs.Stage.Settlement
import BuilderForge.Stage.Tracked

/-!
# What a tracked stage gives back

A tracked stage computes everything anew, so what it remembers shows in the
reasons of its outputs and nowhere else: the live outputs are those of the
sweep (`livePairs_run`), and those of a run to the end are the values of its
jobs (`livePairs_of_complete`). As nothing is known before, a sweep works on
its jobs in order until one of them calls the run off; these are the jobs
that are `begun`, and they are all that a run has results for
(`results_sweep`).
-/

namespace BuilderForge

open Std

variable {κ ι ω : Type}

namespace TrackedStage

variable {jobs : List (Job κ ι)} {compute : ι → Option ω} {flag : Bool}

/-- **The results of a sweep are those of the jobs it begins.** -/
theorem results_sweep (compute : ι → Option ω) (flag : Bool) (jobs : List (Job κ ι)) :
    results (sweep (fun _ => none) compute flag jobs) =
      (begun flag jobs).map fun job => ⟨job.key, compute job.input, false⟩ := by
  rw [← answered_none flag jobs]
  exact filterMap_sweep fun job answer => (⟨job.key, answer.value, false⟩ : Finished κ ω)

/-- Jobs with distinct keys have results with distinct keys. -/
theorem nodup_keys_results (h : (jobs.map Job.key).Nodup) :
    ((results (sweep (fun _ => none) compute flag jobs)).map Finished.key).Nodup := by
  refine nodup_filterMap_sweep (fun outcome finished hfinished => ?_) h
  obtain ⟨answer, -, rfl⟩ := Option.map_eq_some_iff.1 hfinished
  rfl

variable [Ord κ] [TransOrd κ] [DecidableEq ω] {stage : TrackedStage κ ω}

/-- A run is complete unless the flag went up. -/
theorem complete_run : (stage.run jobs compute flag).report.complete =
    !flagAfter flag (sweep (fun _ => none) compute flag jobs) := rfl

/-- **The live outputs of a run are those of its sweep**, whatever the stage
remembers. -/
theorem livePairs_run :
    (stage.run jobs compute flag).report.livePairs =
      ascendingBy Prod.fst
        (Finished.kept (results (sweep (fun _ => none) compute flag jobs))) :=
  livePairs_settled

/-- **A run to the end gives every job its value**, sorted by key; the jobs
that are dropped have none. -/
theorem livePairs_of_complete
    (hcomplete : (stage.run jobs compute flag).report.complete = true) :
    (stage.run jobs compute flag).report.livePairs =
      ascendingBy Prod.fst
        (jobs.filterMap fun job => (compute job.input).map fun value => (job.key, value)) := by
  have hflag : flagAfter flag (sweep (fun _ => none) compute flag jobs) = false := by
    rwa [complete_run, Bool.not_eq_true'] at hcomplete
  rw [livePairs_run, sweep_of_complete hflag]
  simp only [Finished.kept, results, List.filterMap_map, List.filterMap_filterMap]
  rfl

end TrackedStage

end BuilderForge

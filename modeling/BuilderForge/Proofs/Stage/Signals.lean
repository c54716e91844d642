import BuilderForge.Proofs.Stage.Answering
import BuilderForge.Proofs.Stage.Memory

/-!
# Stages under a signal

A signal marks jobs and may raise the flag ahead of them, and does no more:
the jobs keep their keys and inputs (`map_mark`). Whether it calls the run off
is settled before the sweep. A signal over a key counts exactly if the answer
to its job has to be computed (`Signal.reaches`), since a job that is recalled
is over at once; and a flag that was up before the stage is not taken down
(`MemoStage.complete_run_under`).
-/

namespace BuilderForge

open Std

variable {κ ι ω β : Type} [DecidableEq κ]

namespace Signal

/-- Whether the signal comes in time for a stage that has to compute the
answers to the jobs of `keys`. -/
def reaches (keys : List κ) : Signal κ → Bool
  | never => false
  | before => true
  | during key => key ∈ keys

variable (signal : Signal κ) {jobs : List (Job κ ι)}

/-- **A signal changes no job** but for the mark. -/
theorem map_mark {f : Job κ ι → β} (hf : ∀ job cancels, f { job with cancels } = f job)
    (jobs : List (Job κ ι)) : (signal.mark jobs).map f = jobs.map f := by
  cases signal with
  | never => rfl
  | before => rfl
  | during key =>
    rw [mark, List.map_map]
    exact List.map_congr_left fun job _ => hf job _

/-- In particular it moves no job. -/
theorem ascendsBy_mark [Ord κ] (h : AscendsBy Job.key jobs) :
    AscendsBy Job.key (signal.mark jobs) := by
  cases signal with
  | never => exact h
  | before => exact h
  | during key => exact ascendsBy_map.2 h

/-- **When the flag is up under a signal**: it was, or the signal comes in
time. -/
theorem flagAfter_sweep_mark {known : ι → Option ω} {compute : ι → ω} {flag : Bool}
    (h : ∀ job ∈ jobs, job.cancels = false) :
    flagAfter (signal.startingFlag flag)
        (sweep known compute (signal.startingFlag flag) (signal.mark jobs)) =
      (flag || signal.reaches ((pending known jobs).map Job.key)) := by
  have hquiet : (jobs.any fun job => (known job.input).isNone && job.cancels) = false :=
    List.any_eq_false.2 fun job hjob => by simp [h job hjob]
  rw [flagAfter_sweep]
  cases signal with
  | never => exact congrArg (flag || ·) hquiet
  | before => exact (Bool.or_true flag).symm
  | during key =>
    refine congrArg (flag || ·) ?_
    rw [mark, List.any_map, reaches, Bool.eq_iff_iff, List.any_eq_true, decide_eq_true_eq,
      List.mem_map]
    simp only [Function.comp_apply, Bool.and_eq_true, Bool.or_eq_true, decide_eq_true_eq, pending,
      List.mem_filter]
    constructor
    · rintro ⟨job, hjob, hnone, hcancels | hkey⟩
      · rw [h job hjob] at hcancels
        cases hcancels
      · exact ⟨job, ⟨hjob, hnone⟩, hkey⟩
    · rintro ⟨job, ⟨hjob, hnone⟩, hkey⟩
      exact ⟨job, hjob, hnone, .inr hkey⟩

end Signal

/-- **When a memo stage comes to its end** over jobs that do not call the run
off themselves: the flag was down, and the signal does not come in time. -/
theorem MemoStage.complete_run_under [Ord κ] [Ord ι] [TransOrd κ] [TransOrd ι] [DecidableEq ω]
    {stage : MemoStage κ ι ω} {jobs : List (Job κ ι)} {compute : ι → ω} {flag : Bool}
    (signal : Signal κ) (h : ∀ job ∈ jobs, job.cancels = false) :
    (stage.run (signal.mark jobs) compute (signal.startingFlag flag)).report.complete =
      (!flag && !signal.reaches ((pending (stage.memo[·]?) jobs).map Job.key)) := by
  rw [complete_run, signal.flagAfter_sweep_mark h, Bool.not_or]

end BuilderForge

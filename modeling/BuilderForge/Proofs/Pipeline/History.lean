import BuilderForge.Pipeline.Run
import Mathlib.Data.List.Induction

/-!
# Histories of runs

A pipeline lives as long as its host and is run again and again. Each run is
called with a batch, and it may be called off: beforehand, or by an object of
the batch while it is read. A run to the end, where nothing is listened to,
is the run of a batch without such objects (`Pipeline.runToEnd`), so it needs
no place of its own here. What later runs are compared with is the last run
of the history that was not called off (`lastComplete`).

A host may also call its runs off later, whenever it likes. What it can come
by then is `Reached`; histories in which it leaves the runs alone are the
special case (`reached_after`).
-/

namespace BuilderForge

/-- A call of a pipeline. -/
structure Request where
  batch : Batch
  /-- Whether the run is called off before it begins. -/
  flag : Bool

/-- The last run that was not called off. -/
def lastComplete (runs : List RunResult) : Option RunResult :=
  (runs.filter fun run => !run.cancelled).getLast?

/-- A run to the end is the one that counts from then on. -/
theorem lastComplete_concat_of_complete (runs : List RunResult) {run : RunResult}
    (h : run.cancelled = false) : lastComplete (runs ++ [run]) = some run := by
  simp [lastComplete, h]

/-- A run that is called off counts for nothing. -/
theorem lastComplete_concat_of_cancelled (runs : List RunResult) {run : RunResult}
    (h : run.cancelled = true) : lastComplete (runs ++ [run]) = lastComplete runs := by
  simp [lastComplete, h]

/-- The last run to the end is one of the runs. -/
theorem mem_of_lastComplete {runs : List RunResult} {run : RunResult}
    (h : lastComplete runs = some run) : run ∈ runs :=
  (List.mem_filter.1 (List.mem_of_getLast? h)).1

namespace Pipeline

/-- The pipeline and the result after one call. -/
def serve (pipeline : Pipeline) (request : Request) : Pipeline × RunResult :=
  pipeline.run request.batch request.flag

/-- The pipeline after a history of calls. -/
def after (pipeline : Pipeline) (history : List Request) : Pipeline :=
  history.foldl (fun p request => (p.serve request).1) pipeline

/-- The results of a history of calls, in order. -/
def results (pipeline : Pipeline) : List Request → List RunResult
  | [] => []
  | request :: rest => (pipeline.serve request).2 :: (pipeline.serve request).1.results rest

variable (pipeline : Pipeline) (history : List Request) (request : Request)

@[simp]
theorem after_concat :
    pipeline.after (history ++ [request]) = ((pipeline.after history).serve request).1 := by
  simp [after]

@[simp]
theorem results_concat : pipeline.results (history ++ [request]) =
    pipeline.results history ++ [((pipeline.after history).serve request).2] := by
  induction history generalizing pipeline with
  | nil => rfl
  | cons first rest ih =>
    rw [List.cons_append, results, ih, results, List.cons_append]
    rfl

/-- Options are fixed for the lifetime of a pipeline. -/
@[simp]
theorem config_after : (pipeline.after history).config = pipeline.config := by
  induction history using List.reverseRecOn with
  | nil => rfl
  | append_singleton rest request ih =>
    rw [after_concat]
    exact Eq.trans config_runUnder ih

/-- The last run to the end is the answer to some request of the history. -/
theorem exists_of_lastComplete {run : RunResult}
    (h : lastComplete (pipeline.results history) = some run) :
    ∃ earlier request, earlier ++ [request] <+: history ∧
      run = ((pipeline.after earlier).serve request).2 ∧ run.cancelled = false := by
  induction history using List.reverseRecOn with
  | nil => cases h
  | append_singleton rest request ih =>
    rw [results_concat] at h
    -- from the end of the history: the last request is the one, or it does not count
    cases hcancelled : ((pipeline.after rest).serve request).2.cancelled with
    | false =>
      rw [lastComplete_concat_of_complete _ hcancelled] at h
      obtain rfl := Option.some.inj h
      exact ⟨rest, request, List.prefix_rfl, rfl, hcancelled⟩
    | true =>
      rw [lastComplete_concat_of_cancelled _ hcancelled] at h
      obtain ⟨earlier, first, hprefix, hrun⟩ := ih h
      exact ⟨earlier, first, hprefix.trans (List.prefix_append _ _), hrun⟩

/-! ## Under signals -/

/-- **The pipelines that a host can come by**, with the results it has had
from each: a new one, and the pipeline after one more run, under whatever
signals the host gives during that run. -/
inductive Reached (config : GeneratorConfig) : Pipeline → List RunResult → Prop
  | new : Reached config (.new config) []
  | run {pipeline : Pipeline} {results : List RunResult} (h : Reached config pipeline results)
      (batch : Batch) (flag : Bool) (signals : Signals) :
      Reached config (pipeline.runUnder batch flag signals).1
        (results ++ [(pipeline.runUnder batch flag signals).2])

/-- **A history of calls reaches a pipeline**, with its results. -/
theorem reached_after (config : GeneratorConfig) (history : List Request) :
    Reached config ((Pipeline.new config).after history)
      ((Pipeline.new config).results history) := by
  induction history using List.reverseRecOn with
  | nil => exact .new
  | append_singleton rest request ih =>
    rw [after_concat, results_concat]
    exact ih.run request.batch request.flag .none

/-- Options are fixed, also under signals. -/
theorem Reached.config_eq {config : GeneratorConfig} {pipeline : Pipeline}
    {results : List RunResult} (h : Reached config pipeline results) :
    pipeline.config = config := by
  induction h with
  | new => rfl
  | run _ _ _ _ ih => exact ih

end Pipeline

end BuilderForge

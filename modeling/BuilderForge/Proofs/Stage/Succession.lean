import BuilderForge.Proofs.Stage.Calls
import BuilderForge.Proofs.Stage.Dropping

/-!
# Reports that follow one another

A tracked stage hands its table of remembered outputs from run to run, and
uses it up entry by entry while it makes a report. After a run to the end the
table is nothing but what that run reported (`previous_serve`), so a report
can be told from the one before it and from what the run is called with, and
no earlier run has a part in it (`reports_follow`). A key that was dropped or
left out is new when it comes back, whatever it had further back.
-/

namespace BuilderForge

open Std

variable {κ ι ω : Type}

/-! ## What a report says -/

/-- **How a value compares** with what its key had. -/
inductive Compares (had : Option ω) (value : ω) : StepReason → Prop
  | new : had = none → Compares had value .new
  | unchanged : had = some value → Compares had value .unchanged
  | modified {old : ω} : had = some old → old ≠ value → Compares had value .modified

/-- The reason for a computed value tells how it compares. -/
theorem eq_reasonAgainst_iff [DecidableEq ω] {had : Option ω} {value : ω} {reason : StepReason} :
    reason = reasonAgainst had value ↔ Compares had value reason := by
  constructor
  · rintro rfl
    cases had with
    | none => exact .new rfl
    | some old =>
      rw [reasonAgainst]
      split
      · next heq => exact .unchanged (heq ▸ rfl)
      · next hne => exact .modified rfl hne
  · rintro (rfl | rfl | ⟨rfl, hne⟩)
    · rfl
    · rw [reasonAgainst, if_pos rfl]
    · rw [reasonAgainst, if_neg hne]

/-- An output is live exactly if its result has a value; what it says of a
value that was computed is how that compares with what the key had. -/
theorem Finished.output?_eq_live_iff [DecidableEq ω] {had : Option ω} {key name : κ}
    {result : Option ω} {value : ω} {reason : StepReason} :
    Finished.output? had ⟨name, result, false⟩ = some ⟨key, value, reason⟩ ∧
        reason ≠ .removed ↔
      name = key ∧ result = some value ∧ Compares had value reason := by
  rw [← eq_reasonAgainst_iff]
  cases result with
  | none => cases had <;> simp +contextual [output?, eq_comm]
  | some found =>
    simp only [output?, Bool.false_eq_true, if_false, Option.some.injEq, StageOutput.mk.injEq]
    constructor
    · rintro ⟨⟨rfl, rfl, rfl⟩, -⟩
      exact ⟨rfl, rfl, rfl⟩
    · rintro ⟨rfl, rfl, rfl⟩
      exact ⟨⟨rfl, rfl, rfl⟩, reasonAgainst_ne_removed had found⟩

/-- **A report follows another**, which is that of the run before it, if
there was one. -/
structure StageReport.Follows [Ord κ] [DecidableEq κ] (report : StageReport κ ω)
    (last : Option (StageReport κ ω)) (call : Call κ ι (Option ω)) : Prop where
  /-- No key is reported twice, and the keys ascend. -/
  ascends : AscendsBy StageOutput.key report.outputs
  /-- The live outputs are the values of the items that have one, each with
  a reason that tells how it compares with the live output that the key had
  in the run before. -/
  live : ∀ key value reason, ⟨key, value, reason⟩ ∈ report.live ↔
    (∃ job ∈ call.jobs, job.key = key ∧ call.compute job.input = some value) ∧
      Compares (last.bind (·.value? key)) value reason
  /-- The removed outputs are the live ones of the run before whose keys have
  no item now, or one that drops them, with the values that they had. -/
  removed : ∀ key value, ⟨key, value, .removed⟩ ∈ report.outputs ↔
    last.bind (·.value? key) = some value ∧
      ∀ job ∈ call.jobs, job.key = key → call.compute job.input = none
  /-- All items are computed, -/
  misses : report.misses = call.jobs.length
  /-- and none is recalled. -/
  hits : report.hits = 0

namespace TrackedStage

variable [Ord κ] [TransOrd κ] [DecidableEq ω]

/-! ## Calls of a tracked stage -/

/-- The run of one call. -/
def serve (stage : TrackedStage κ ω) (call : Call κ ι (Option ω)) :
    StageRun (TrackedStage κ ω) κ ι ω :=
  stage.run call.jobs call.compute call.flag

/-- The stage after a history of calls. -/
def after (stage : TrackedStage κ ω) (history : List (Call κ ι (Option ω))) : TrackedStage κ ω :=
  history.foldl (fun s call => (s.serve call).stage) stage

/-- The reports of a history of calls, in order. -/
def reports (stage : TrackedStage κ ω) : List (Call κ ι (Option ω)) → List (StageReport κ ω)
  | [] => []
  | call :: rest => (stage.serve call).report :: (stage.serve call).stage.reports rest

variable (stage : TrackedStage κ ω) (history : List (Call κ ι (Option ω)))
variable (call : Call κ ι (Option ω))

@[simp]
theorem after_concat :
    stage.after (history ++ [call]) = ((stage.after history).serve call).stage := by
  simp [after]

@[simp]
theorem reports_concat : stage.reports (history ++ [call]) =
    stage.reports history ++ [((stage.after history).serve call).report] := by
  induction history generalizing stage with
  | nil => rfl
  | cons first rest ih =>
    rw [List.cons_append, reports, ih, reports, List.cons_append]
    rfl

/-! ## A run to the end -/

variable {stage : TrackedStage κ ω} {history : List (Call κ ι (Option ω))}
variable {call : Call κ ι (Option ω)}

/-- A run to the end has a result for every item. -/
theorem results_of_complete (hcomplete : (stage.serve call).report.complete = true) :
    results (sweep (fun _ => none) call.compute call.flag call.jobs) =
      call.jobs.map fun job => ⟨job.key, call.compute job.input, false⟩ := by
  have hflag : flagAfter call.flag (sweep (fun _ => none) call.compute call.flag call.jobs) =
      false := by
    rwa [serve, complete_run, Bool.not_eq_true'] at hcomplete
  rw [results_sweep, ← answered_none (ω := Option ω) call.flag call.jobs,
    answered_of_complete hflag]

variable [LawfulEqOrd κ]

/-- **What a run to the end reports**: the outputs of its items, each held
against what is remembered of its key, and what is remembered of keys that
have no item. -/
theorem mem_outputs_serve (h : call.Distinct)
    (hcomplete : (stage.serve call).report.complete = true) {output : StageOutput κ ω} :
    output ∈ (stage.serve call).report.outputs ↔
      (∃ job ∈ call.jobs, Finished.output? stage.previous[job.key]?
        ⟨job.key, call.compute job.input, false⟩ = some output) ∨
      output.reason = .removed ∧ output.key ∉ call.jobs.map Job.key ∧
        stage.previous[output.key]? = some output.value := by
  have houtputs : (stage.serve call).report.outputs = settledOutputs stage.previous
      (results (sweep (fun _ => none) call.compute call.flag call.jobs)) true := by
    rw [← hcomplete]
    rfl
  rw [houtputs, mem_settledOutputs (nodup_keys_results h), results_of_complete hcomplete]
  simp

variable [DecidableEq κ]

/-- **What a run to the end leaves behind** is what it reported. -/
theorem previous_serve (h : call.Distinct)
    (hcomplete : (stage.serve call).report.complete = true) (key : κ) :
    (stage.serve call).stage.previous[key]? = (stage.serve call).report.value? key := by
  have hprevious : (stage.serve call).stage.previous = settledTable stage.previous
      (results (sweep (fun _ => none) call.compute call.flag call.jobs)) true := by
    rw [← hcomplete]
    rfl
  have hlive : ((stage.serve call).report.live.map StageOutput.key).Nodup :=
    ((ascendsBy_settledOutputs (nodup_keys_results h)).sublist List.filter_sublist).nodup_keys
  refine Option.ext fun value => ?_
  rw [StageReport.value?_eq_some_iff hlive, hprevious,
    settledTable_of_complete (nodup_keys_results h), serve, livePairs_run, mem_ascendingBy]

/-- **After a history of runs to the end** the stage remembers the live
outputs of the last of them, and nothing of those before. -/
theorem previous_after (name : StageName) (history : List (Call κ ι (Option ω)))
    (h : ∀ each ∈ history, each.Distinct)
    (hcomplete : ∀ report ∈ (empty name : TrackedStage κ ω).reports history,
      report.complete = true) (key : κ) :
    ((empty name : TrackedStage κ ω).after history).previous[key]? =
      ((empty name : TrackedStage κ ω).reports history).getLast?.bind (·.value? key) := by
  -- the last run decides, whatever was remembered before it
  rcases List.eq_nil_or_concat' history with rfl | ⟨earlier, last, rfl⟩
  · exact ExtTreeMap.getElem?_empty
  · rw [reports_concat] at hcomplete
    rw [after_concat, reports_concat, List.getLast?_concat]
    exact previous_serve (h last (List.mem_append_right _ (List.mem_singleton_self last)))
      (hcomplete _ (List.mem_append_right _ (List.mem_singleton_self _))) key

/-- A run to the end follows the report that the stage remembers. -/
theorem follows_serve (h : call.Distinct) (hcomplete : (stage.serve call).report.complete = true)
    {last : Option (StageReport κ ω)}
    (hlast : ∀ key, stage.previous[key]? = last.bind (·.value? key)) :
    (stage.serve call).report.Follows last call where
  ascends := ascendsBy_settledOutputs (nodup_keys_results h)
  live key value reason := by
    rw [StageReport.live, List.mem_filter, mem_outputs_serve h hcomplete]
    simp only [StageOutput.isLive, decide_eq_true_eq]
    constructor
    · rintro ⟨⟨job, hjob, houtput⟩ | ⟨hremoved, -⟩, hlive⟩
      · obtain ⟨rfl, hvalue, hcompares⟩ := Finished.output?_eq_live_iff.1 ⟨houtput, hlive⟩
        exact ⟨⟨job, hjob, rfl, hvalue⟩, hlast job.key ▸ hcompares⟩
      · exact absurd hremoved hlive
    · rintro ⟨⟨job, hjob, rfl, hvalue⟩, hcompares⟩
      obtain ⟨houtput, hlive⟩ :=
        Finished.output?_eq_live_iff.2 ⟨rfl, hvalue, hlast job.key ▸ hcompares⟩
      exact ⟨.inl ⟨job, hjob, houtput⟩, hlive⟩
  removed key value := by
    rw [mem_outputs_serve h hcomplete, ← hlast]
    simp only [Finished.output?_eq_removed_iff, true_and]
    constructor
    · rintro (⟨job, hjob, rfl, hdrop, hheld⟩ | ⟨hnone, hheld⟩)
      · -- the item that drops the key is the only one that the key has
        refine ⟨hheld, fun other hother hkey => ?_⟩
        rw [List.inj_on_of_nodup_map h hother hjob hkey, hdrop]
      · exact ⟨hheld, fun job hjob hkey => absurd (List.mem_map.2 ⟨job, hjob, hkey⟩) hnone⟩
    · rintro ⟨hheld, hdrop⟩
      by_cases hkey : key ∈ call.jobs.map Job.key
      · obtain ⟨job, hjob, rfl⟩ := List.mem_map.1 hkey
        exact .inl ⟨job, hjob, rfl, hdrop job hjob rfl, hheld⟩
      · exact .inr ⟨hkey, hheld⟩
  misses := by
    have hmisses : (stage.serve call).report.misses =
        (results (sweep (fun _ => none) call.compute call.flag call.jobs)).length := rfl
    rw [hmisses, results_of_complete hcomplete, List.length_map]
  hits := rfl

/-- **Reports of runs to the end follow one another.** Each lists every key
at most once and in order; the item of a key that has a value is new,
unchanged or modified as that compares with the live output of the key in the
run right before; what was live there, and has no item now or one that drops
it, is removed with the value that it had; and all items are computed. -/
theorem reports_follow (name : StageName) (history : List (Call κ ι (Option ω)))
    (call : Call κ ι (Option ω)) (h : ∀ each ∈ history ++ [call], each.Distinct)
    (hcomplete : ∀ report ∈ (empty name : TrackedStage κ ω).reports (history ++ [call]),
      report.complete = true) :
    (((empty name : TrackedStage κ ω).after history).serve call).report.Follows
      ((empty name : TrackedStage κ ω).reports history).getLast? call := by
  have hcall : call.Distinct := h call (List.mem_append_right _ (List.mem_singleton_self call))
  have hearlier : ∀ each ∈ history, each.Distinct := fun each hmem =>
    h each (List.mem_append_left _ hmem)
  rw [reports_concat] at hcomplete
  exact follows_serve hcall
    (hcomplete _ (List.mem_append_right _ (List.mem_singleton_self _)))
    (previous_after name history hearlier fun report hmem =>
      hcomplete report (List.mem_append_left _ hmem))

/-- A call whose items drop their keys where the input is empty. -/
def dropping (jobs : List (Job String String)) : Call String String (Option String) :=
  ⟨jobs, fun input => if input = "" then none else some input, false⟩

/-- Two runs: the first has three keys, of which the second drops one and
has no item for another one. -/
def dwindling : List (Call String String (Option String)) :=
  [dropping [⟨"c", "z", false⟩, ⟨"a", "x", false⟩, ⟨"b", "y", false⟩],
    dropping [⟨"b", "y", false⟩, ⟨"a", "", false⟩]]

/-- The key that was dropped comes back and is new, and the one that was left
is dropped with the value that it had. -/
theorem reports_follow_of_dwindling :
    (∀ each ∈ dwindling ++ [dropping [⟨"b", "", false⟩, ⟨"a", "x", false⟩]], each.Distinct) ∧
      (∀ report ∈ (empty .initialExtraction).reports
        (dwindling ++ [dropping [⟨"b", "", false⟩, ⟨"a", "x", false⟩]]), report.complete = true) ∧
      ⟨"a", "x", .new⟩ ∈ (((empty .initialExtraction).after dwindling).serve
        (dropping [⟨"b", "", false⟩, ⟨"a", "x", false⟩])).report.live ∧
      ⟨"b", "y", .removed⟩ ∈ (((empty .initialExtraction).after dwindling).serve
        (dropping [⟨"b", "", false⟩, ⟨"a", "x", false⟩])).report.outputs := by
  have hdistinct : ∀ each ∈ dwindling ++ [dropping [⟨"b", "", false⟩, ⟨"a", "x", false⟩]],
      each.Distinct := by decide
  have hcomplete : ∀ report ∈ (empty .initialExtraction).reports
      (dwindling ++ [dropping [⟨"b", "", false⟩, ⟨"a", "x", false⟩]]), report.complete = true := by
    decide +kernel
  have hremembered := previous_after .initialExtraction dwindling (by decide) (by decide +kernel)
  have hfollows := reports_follow .initialExtraction dwindling _ hdistinct hcomplete
  refine ⟨hdistinct, hcomplete, (hfollows.live "a" "x" .new).2 ⟨by decide +kernel, .new ?_⟩,
    (hfollows.removed "b" "y").2 ⟨?_, by decide +kernel⟩⟩
  · rw [← hremembered]
    decide +kernel
  · rw [← hremembered]
    decide +kernel

end TrackedStage

end BuilderForge

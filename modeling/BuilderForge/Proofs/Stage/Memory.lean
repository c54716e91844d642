import BuilderForge.Proofs.Stage.Settlement
import BuilderForge.Proofs.Stage.Sweep
import BuilderForge.Proofs.Stage.Table
import BuilderForge.Stage.Memo

/-!
# What a memo stage remembers

The memo answers by input and knows nothing of keys, while the report
compares by key. The two agree because an input determines the key it
belongs to, and because memo and remembered outputs then say the same thing:
for each key of the last complete run, the input and the value it had there.
`MemoStage.Remembers` is that description. A run to the end replaces it by
the description of its own jobs (`Remembers.run_of_complete`) and reports
against it (`Remembers.accounts`); a run under the flag only gives back what
is known, and leaves the stage as it was (`Remembers.run_of_flag`).
-/

namespace BuilderForge

open Std

variable {κ ι ω : Type}

/-! ## Runs in closed form -/

namespace MemoStage

/-- `now` gives for each key of the jobs its input and the value of it. -/
def Describes (compute : ι → ω) (jobs : List (Job κ ι)) (now : κ → Option (ι × ω)) : Prop :=
  ∀ key input value, now key = some (input, value) ↔
    ∃ job ∈ jobs, job.key = key ∧ job.input = input ∧ value = compute input

/-- A key is described exactly if it has a job. -/
theorem Describes.eq_none_iff {compute : ι → ω} {jobs : List (Job κ ι)}
    {now : κ → Option (ι × ω)} (h : Describes compute jobs now) {key : κ} :
    now key = none ↔ key ∉ jobs.map Job.key := by
  rw [Option.eq_none_iff_forall_ne_some, List.mem_map]
  constructor
  · rintro hnone ⟨job, hjob, rfl⟩
    exact hnone _ ((h _ _ _).2 ⟨job, hjob, rfl, rfl, rfl⟩)
  · rintro hmem ⟨input, value⟩ hsome
    obtain ⟨job, hjob, hkey, -, -⟩ := (h _ _ _).1 hsome
    exact hmem ⟨job, hjob, hkey⟩

/-- The results of a run to the end, job by job. -/
theorem results_of_answerTo (known : ι → Option ω) (compute : ι → ω) (jobs : List (Job κ ι)) :
    results (jobs.map fun job => ⟨job, some (answerTo known compute job.input)⟩) =
      jobs.map fun job => ⟨job.key, some (answerTo known compute job.input).value,
        (answerTo known compute job.input).recalled⟩ := by
  rw [results, List.filterMap_map]
  exact congrFun List.filterMap_eq_map' jobs

/-- The answers of a run to the end with their inputs. -/
theorem answers_of_answerTo (known : ι → Option ω) (compute : ι → ω) (jobs : List (Job κ ι)) :
    answers (jobs.map fun job => ⟨job, some (answerTo known compute job.input)⟩) =
      jobs.map fun job => (job.input, (answerTo known compute job.input).value) := by
  rw [answers, List.filterMap_map]
  exact congrFun List.filterMap_eq_map' jobs

/-- The results of a run under the flag: what is known, recalled. -/
theorem mem_results_of_flag {known : ι → Option ω} {jobs : List (Job κ ι)}
    {finished : Finished κ ω} :
    finished ∈ results (jobs.map fun job => ⟨job, (known job.input).map (⟨·, true⟩)⟩) ↔
      ∃ job ∈ jobs, ∃ value, known job.input = some value ∧
        finished = ⟨job.key, some value, true⟩ := by
  simp only [results, List.filterMap_map, List.mem_filterMap, Function.comp, Option.map_map,
    Option.map_eq_some_iff, eq_comm (b := finished)]

/-- The answers of a run under the flag: what is known. -/
theorem mem_answers_of_flag {known : ι → Option ω} {jobs : List (Job κ ι)} {pair : ι × ω} :
    pair ∈ answers (jobs.map fun job => ⟨job, (known job.input).map (⟨·, true⟩)⟩) ↔
      ∃ job ∈ jobs, known job.input = some pair.2 ∧ job.input = pair.1 := by
  obtain ⟨input, value⟩ := pair
  simp only [answers, List.filterMap_map, List.mem_filterMap, Function.comp, Option.map_map,
    Option.map_eq_some_iff, Prod.mk.injEq]
  constructor
  · rintro ⟨job, hjob, v, hv, hinput, rfl⟩
    exact ⟨job, hjob, hv, hinput⟩
  · rintro ⟨job, hjob, hv, hinput⟩
    exact ⟨job, hjob, value, hv, hinput, rfl⟩

/-- Jobs with distinct keys have results with distinct keys. -/
theorem nodup_keys_results [Ord κ] [TransOrd κ] (known : ι → Option ω) (compute : ι → ω)
    (flag : Bool) {jobs : List (Job κ ι)} (h : AscendsBy Job.key jobs) :
    ((results (sweep known compute flag jobs)).map Finished.key).Nodup := by
  refine nodup_filterMap_sweep (fun outcome finished hfinished => ?_) h.nodup_keys
  obtain ⟨answer, -, rfl⟩ := Option.map_eq_some_iff.1 hfinished
  rfl

variable [Ord κ] [Ord ι] [TransOrd ι]

/-- The results of a run to the end: every job has the value of its input,
recalled if the memo has the input. -/
def finishedJobs (stage : MemoStage κ ι ω) (compute : ι → ω) (jobs : List (Job κ ι)) :
    List (Finished κ ω) :=
  jobs.map fun job => ⟨job.key, some (compute job.input), stage.memo[job.input]?.isSome⟩

@[simp]
theorem keys_finishedJobs (stage : MemoStage κ ι ω) (compute : ι → ω) (jobs : List (Job κ ι)) :
    (stage.finishedJobs compute jobs).map Finished.key = jobs.map Job.key := by
  rw [finishedJobs, List.map_map]
  rfl

/-- Jobs with distinct keys have results with distinct keys. -/
theorem nodup_keys_finishedJobs [TransOrd κ] (stage : MemoStage κ ι ω) (compute : ι → ω)
    {jobs : List (Job κ ι)} (h : AscendsBy Job.key jobs) :
    ((stage.finishedJobs compute jobs).map Finished.key).Nodup := by
  rw [keys_finishedJobs]
  exact h.nodup_keys

@[simp]
theorem kept_finishedJobs (stage : MemoStage κ ι ω) (compute : ι → ω) (jobs : List (Job κ ι)) :
    Finished.kept (stage.finishedJobs compute jobs) =
      jobs.map fun job => (job.key, compute job.input) := by
  rw [Finished.kept, finishedJobs, List.filterMap_map]
  exact congrFun List.filterMap_eq_map' jobs

/-! ## The description of a stage -/

variable [TransOrd κ]

/-- **What a stage remembers**: `was` gives for each key the input and the
value it had in the last complete run, none if it was not there. The memo
holds those inputs and no others, the remembered outputs are those of the
keys, and every input belongs to one key only, the one that `keyOf` finds. -/
structure Remembers (stage : MemoStage κ ι ω) (keyOf : ι → κ) (compute : ι → ω)
    (was : κ → Option (ι × ω)) : Prop where
  memo : ∀ input value, stage.memo[input]? = some value ↔ ∃ key, was key = some (input, value)
  previous : ∀ key value,
    stage.previous[key]? = some value ↔ ∃ input, was key = some (input, value)
  keyed : ∀ key input value, was key = some (input, value) → keyOf input = key
  sound : ∀ key input value, was key = some (input, value) → value = compute input

/-- A stage that has not run yet remembers nothing. -/
theorem remembers_empty (name : StageName) (keyOf : ι → κ) (compute : ι → ω) :
    (MemoStage.empty name : MemoStage κ ι ω).Remembers keyOf compute fun _ => none where
  memo := by simp [MemoStage.empty]
  previous := by simp [MemoStage.empty]
  keyed _ _ _ h := by cases h
  sound _ _ _ h := by cases h

variable {stage : MemoStage κ ι ω} {keyOf : ι → κ} {compute : ι → ω}
variable {was now : κ → Option (ι × ω)} {jobs : List (Job κ ι)} {flag : Bool}

namespace Remembers

/-- **The memo is sound**: it answers what would be computed. -/
theorem value_answerTo (h : stage.Remembers keyOf compute was) (input : ι) :
    (answerTo (stage.memo[·]?) compute input).value = compute input := by
  cases hmemo : stage.memo[input]? with
  | none => rw [answerTo_of_unknown hmemo]
  | some value =>
    obtain ⟨key, hkey⟩ := (h.memo input value).1 hmemo
    rw [answerTo_of_known hmemo, h.sound key input value hkey]

/-- **A memo hit is a hit for the key**: what the memo knows of an input is
what the input's own key had. -/
theorem was_of_known (h : stage.Remembers keyOf compute was) {input : ι} {value : ω}
    (hknown : stage.memo[input]? = some value) : was (keyOf input) = some (input, value) := by
  obtain ⟨key, hkey⟩ := (h.memo input value).1 hknown
  rw [h.keyed key input value hkey]
  exact hkey

end Remembers

variable [DecidableEq ω]

/-- The live outputs of a run ascend strictly. -/
theorem ascendsBy_live_run [LawfulEqOrd κ] (h : AscendsBy Job.key jobs) :
    AscendsBy StageOutput.key (stage.run jobs compute flag).report.live :=
  (ascendsBy_settledOutputs (nodup_keys_results _ _ _ h)).sublist List.filter_sublist

/-- A run is complete unless the flag went up. -/
theorem complete_run : (stage.run jobs compute flag).report.complete =
    !flagAfter flag (sweep (stage.memo[·]?) compute flag jobs) := rfl

/-- The flag of a run that is complete never went up. -/
theorem flagAfter_of_complete (h : (stage.run jobs compute flag).report.complete = true) :
    flagAfter flag (sweep (stage.memo[·]?) compute flag jobs) = false := by
  rwa [complete_run, Bool.not_eq_true'] at h

namespace Remembers

/-- The results of a run to the end are a function of its jobs. -/
theorem results_of_complete (h : stage.Remembers keyOf compute was)
    (hcomplete : (stage.run jobs compute flag).report.complete = true) :
    results (sweep (stage.memo[·]?) compute flag jobs) = stage.finishedJobs compute jobs := by
  rw [sweep_of_complete (flagAfter_of_complete hcomplete), results_of_answerTo, finishedJobs]
  refine List.map_congr_left fun job _ => ?_
  rw [h.value_answerTo]
  cases hmemo : stage.memo[job.input]? with
  | none => rw [answerTo_of_unknown hmemo]; rfl
  | some value => rw [answerTo_of_known hmemo]; rfl

/-- And so are its answers. -/
theorem answers_of_complete (h : stage.Remembers keyOf compute was)
    (hcomplete : (stage.run jobs compute flag).report.complete = true) :
    answers (sweep (stage.memo[·]?) compute flag jobs) =
      jobs.map fun job => (job.input, compute job.input) := by
  rw [sweep_of_complete (flagAfter_of_complete hcomplete), answers_of_answerTo]
  refine List.map_congr_left fun job _ => ?_
  rw [h.value_answerTo]

/-- The outputs of a run to the end, settled. -/
theorem outputs_of_complete (h : stage.Remembers keyOf compute was)
    (hcomplete : (stage.run jobs compute flag).report.complete = true) :
    (stage.run jobs compute flag).report.outputs =
      settledOutputs stage.previous (stage.finishedJobs compute jobs) true := by
  rw [← h.results_of_complete hcomplete]
  simp only [run, flagAfter_of_complete hcomplete, Bool.not_false]

/-- What is computed in a run to the end is what is not recalled. -/
theorem misses_of_complete (h : stage.Remembers keyOf compute was)
    (hcomplete : (stage.run jobs compute flag).report.complete = true) :
    (stage.run jobs compute flag).report.misses =
      ((stage.run jobs compute flag).report.live.filter fun output =>
        output.reason ≠ .cached).length := by
  have hmisses : (stage.run jobs compute flag).report.misses =
      (stage.finishedJobs compute jobs).countP fun finished => !finished.recalled := by
    rw [← h.results_of_complete hcomplete]
    rfl
  have hvalues : ∀ finished ∈ stage.finishedJobs compute jobs, finished.value.isSome = true := by
    intro finished hfinished
    obtain ⟨job, -, rfl⟩ := List.mem_map.1 hfinished
    rfl
  rw [hmisses, ← List.countP_eq_length_filter, StageReport.live,
    h.outputs_of_complete hcomplete, live_settledOutputs, (ascendingBy_perm _ _).countP_eq,
    Finished.countP_live_outputs]
  refine List.countP_congr fun finished hfinished => ?_
  rw [hvalues finished hfinished, Bool.true_and]

/-- **Whatever a run gives back is right**, also when it is called off: a
live output has the value of the input of its key's job. -/
theorem job_of_mem_live (h : stage.Remembers keyOf compute was)
    {output : StageOutput κ ω} (houtput : output ∈ (stage.run jobs compute flag).report.live) :
    ∃ job ∈ jobs, job.key = output.key ∧ output.value = compute job.input := by
  have hpair : (output.key, output.value) ∈ (stage.run jobs compute flag).report.livePairs :=
    List.mem_map_of_mem (f := fun o => (o.key, o.value)) houtput
  rw [StageReport.livePairs, StageReport.live, run, livePairs_settled, mem_ascendingBy,
    Finished.mem_kept] at hpair
  obtain ⟨finished, hfinished, hkey, hvalue⟩ := hpair
  obtain ⟨outcome, houtcome, hresult⟩ := List.mem_filterMap.1 hfinished
  obtain ⟨answer, hanswer, rfl⟩ := Option.map_eq_some_iff.1 hresult
  have hjob : outcome.job ∈ jobs := by
    rw [← map_job_sweep (stage.memo[·]?) compute flag jobs]
    exact List.mem_map_of_mem houtcome
  have hvalue : answer.value = output.value := Option.some.inj hvalue
  refine ⟨outcome.job, hjob, hkey, ?_⟩
  rw [← hvalue]
  rcases answer_of_mem_sweep houtcome hanswer with ⟨hknown, -⟩ | ⟨-, rfl⟩
  · exact h.sound _ _ _ (h.was_of_known hknown)
  · rfl

variable [LawfulEqOrd κ]

/-- **A run to the end answers its jobs**, whatever the stage remembers: the
live outputs give each key the value of its input. -/
theorem livePairs_of_complete (h : stage.Remembers keyOf compute was)
    (hcomplete : (stage.run jobs compute flag).report.complete = true)
    (hjobs : AscendsBy Job.key jobs) :
    (stage.run jobs compute flag).report.livePairs =
      jobs.map fun job => (job.key, compute job.input) := by
  rw [StageReport.livePairs, StageReport.live, h.outputs_of_complete hcomplete,
    livePairs_settled, kept_finishedJobs]
  have hpairs : AscendsBy Prod.fst (jobs.map fun job => (job.key, compute job.input)) :=
    ascendsBy_map.2 hjobs
  exact hpairs.ascendingBy_eq

/-- **A run under the flag answers what it can**: if every job has the input
that its key had, the live outputs are those of a run to the end. -/
theorem livePairs_of_flag (h : stage.Remembers keyOf compute was) (hjobs : AscendsBy Job.key jobs)
    (hknown : ∀ job ∈ jobs, was job.key = some (job.input, compute job.input)) :
    (stage.run jobs compute true).report.livePairs =
      jobs.map fun job => (job.key, compute job.input) := by
  have hresults : results (sweep (stage.memo[·]?) compute true jobs) =
      jobs.map fun job => ⟨job.key, some (compute job.input), true⟩ := by
    rw [sweep_of_flag, results, List.filterMap_map, ← List.filterMap_eq_map]
    refine List.filterMap_congr fun job hjob => ?_
    have hmemo := (h.memo job.input (compute job.input)).2 ⟨job.key, hknown job hjob⟩
    simp only [Function.comp_apply, hmemo, Option.map_some]
  have hpairs : AscendsBy Prod.fst (jobs.map fun job => (job.key, compute job.input)) :=
    ascendsBy_map.2 hjobs
  rw [StageReport.livePairs, StageReport.live, run, livePairs_settled, hresults,
    Finished.kept, List.filterMap_map]
  rw [← hpairs.ascendingBy_eq, ← List.filterMap_eq_map]
  rfl

/-- **A run to the end leaves the description of its own jobs**, and no trace
of what was remembered before. -/
theorem run_of_complete [LawfulEqOrd ι] (h : stage.Remembers keyOf compute was)
    (hcomplete : (stage.run jobs compute flag).report.complete = true)
    (hjobs : AscendsBy Job.key jobs) (hkeyed : ∀ job ∈ jobs, keyOf job.input = job.key)
    (hnow : Describes compute jobs now) :
    (stage.run jobs compute flag).stage.Remembers keyOf compute now where
  memo input value := by
    have hmemo : (stage.run jobs compute flag).stage.memo =
        (∅ : Table ι ω).insertMany (jobs.map fun job => (job.input, compute job.input)) := by
      rw [← h.answers_of_complete hcomplete]
      simp only [run, settledMemo, flagAfter_of_complete hcomplete, Bool.not_false, if_true]
    have hagree : ∀ p ∈ jobs.map fun job => (job.input, compute job.input),
        ∀ q ∈ jobs.map fun job => (job.input, compute job.input), p.1 = q.1 → p.2 = q.2 := by
      simp only [List.mem_map]
      rintro _ ⟨job, -, rfl⟩ _ ⟨other, -, rfl⟩ hinput
      exact congrArg compute hinput
    rw [hmemo, getElem?_insertMany_of_agree hagree]
    simp only [List.mem_map, Prod.mk.injEq, ExtTreeMap.getElem?_empty, reduceCtorEq, and_false,
      or_false, hnow _ _ _]
    constructor
    · rintro ⟨job, hjob, rfl, rfl⟩
      exact ⟨job.key, job, hjob, rfl, rfl, rfl⟩
    · rintro ⟨_, job, hjob, -, rfl, rfl⟩
      exact ⟨job, hjob, rfl, rfl⟩
  previous key value := by
    have hprevious : (stage.run jobs compute flag).stage.previous =
        settledTable stage.previous (stage.finishedJobs compute jobs) true := by
      rw [← h.results_of_complete hcomplete]
      simp only [run, flagAfter_of_complete hcomplete, Bool.not_false]
    have hnodup := stage.nodup_keys_finishedJobs compute hjobs
    rw [hprevious, settledTable_of_complete hnodup, kept_finishedJobs]
    simp only [List.mem_map, Prod.mk.injEq, hnow _ _ _]
    constructor
    · rintro ⟨job, hjob, rfl, rfl⟩
      exact ⟨job.input, job, hjob, rfl, rfl, rfl⟩
    · rintro ⟨_, job, hjob, rfl, rfl, rfl⟩
      exact ⟨job, hjob, rfl, rfl⟩
  keyed key input value hkey := by
    obtain ⟨job, hjob, rfl, rfl, -⟩ := (hnow key input value).1 hkey
    exact hkeyed job hjob
  sound key input value hkey := by
    obtain ⟨job, -, -, rfl, hvalue⟩ := (hnow key input value).1 hkey
    exact hvalue

/-- **A run under the flag leaves the stage as it was.** All it gives back is
what the memo knows; each of these values goes to the key that had it, so
neither the memo nor the remembered outputs change. -/
theorem run_of_flag [LawfulEqOrd ι] (h : stage.Remembers keyOf compute was)
    (hjobs : AscendsBy Job.key jobs) (hkeyed : ∀ job ∈ jobs, keyOf job.input = job.key) :
    (stage.run jobs compute true).stage = stage := by
  have hnodup := nodup_keys_results (stage.memo[·]?) compute true hjobs
  have hmemo : stage.memo.insertMany (answers (sweep (stage.memo[·]?) compute true jobs)) =
      stage.memo := by
    refine insertMany_eq_self fun pair hpair => ?_
    rw [sweep_of_flag, mem_answers_of_flag] at hpair
    obtain ⟨job, -, hknown, hinput⟩ := hpair
    rw [← hinput]
    exact hknown
  have hprevious : settledTable stage.previous
      (results (sweep (stage.memo[·]?) compute true jobs)) false = stage.previous := by
    -- a result gives its key what the key has already
    refine settledTable_eq_self hnodup fun finished hfinished => ?_
    rw [sweep_of_flag, mem_results_of_flag] at hfinished
    obtain ⟨job, hjob, value, hknown, rfl⟩ := hfinished
    refine ⟨value, rfl, (h.previous _ _).2 ⟨job.input, ?_⟩⟩
    rw [← hkeyed job hjob]
    exact h.was_of_known hknown
  simp only [run, flagAfter_true, Bool.not_true, settledMemo, Bool.false_eq_true, if_false, hmemo,
    hprevious]

end Remembers

end MemoStage

end BuilderForge

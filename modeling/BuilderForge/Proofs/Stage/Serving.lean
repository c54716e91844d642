import BuilderForge.Proofs.Stage.Calls
import BuilderForge.Proofs.Stage.Memory

/-!
# One call of a memo stage

What a call comes to, said of the items that the stage answers: which these
are is settled beforehand (`answeredJobs`), and the report, the memo and the
remembered outputs all hold the same answers to them. The live outputs are
one for each answered item, also where keys repeat (`forall₂_live_serve`);
where they do not, the whole report can be told key by key
(`mem_live_serve`, `mem_removed_serve`).
-/

namespace BuilderForge

open Std

variable {κ ι ω : Type}

/-! ## Results that all have values -/

section Settled

variable [Ord κ] [TransOrd κ] [DecidableEq ω]
variable {previous : Table κ ω} {results : List (Finished κ ω)}

/-- **One output for each result**, if every result gives one. -/
theorem Finished.forall₂_outputs {R : Finished κ ω → StageOutput κ ω → Prop}
    (h : ∀ finished ∈ results, ∀ old, ∃ output, finished.output? old = some output ∧
      R finished output) : List.Forall₂ R results (outputs previous results) := by
  induction results generalizing previous with
  | nil => exact .nil
  | cons finished rest ih =>
    obtain ⟨output, houtput, hR⟩ := h finished List.mem_cons_self previous[finished.key]?
    have hrest : List.Forall₂ R rest (outputs (previous.erase finished.key) rest) :=
      ih fun f hf => h f (List.mem_cons_of_mem _ hf)
    rw [outputs, houtput]
    exact .cons hR hrest

/-- Every output is that of a result, whatever the key had by then. -/
theorem Finished.exists_of_mem_outputs {output : StageOutput κ ω}
    (h : output ∈ outputs previous results) :
    ∃ finished ∈ results, ∃ old, finished.output? old = some output := by
  induction results generalizing previous with
  | nil => cases h
  | cons finished rest ih =>
    rcases List.mem_append.1 h with hfirst | hrest
    · exact ⟨finished, List.mem_cons_self, _, Option.mem_toList.1 hfirst⟩
    · obtain ⟨later, hlater, hold⟩ := ih hrest
      exact ⟨later, List.mem_cons_of_mem _ hlater, hold⟩

/-- As many outputs count as recalled as there are recalled results. -/
theorem Finished.countP_cached_outputs (previous : Table κ ω)
    (h : ∀ finished ∈ results, finished.value.isSome) :
    (outputs previous results).countP (fun output => output.reason = .cached) =
      results.countP Finished.recalled := by
  induction results generalizing previous with
  | nil => rfl
  | cons finished rest ih =>
    have hrest := ih (previous.erase finished.key) fun f hf => h f (List.mem_cons_of_mem _ hf)
    obtain ⟨value, hvalue⟩ := Option.isSome_iff_exists.1 (h finished List.mem_cons_self)
    rw [outputs, List.countP_append, hrest, List.countP_cons, Nat.add_comm]
    congr 1
    rw [output?, hvalue]
    cases hrecalled : finished.recalled <;> simp [reasonAgainst_ne_cached]

/-- Results that have values have live outputs. -/
theorem Finished.filter_isLive_outputs (h : ∀ finished ∈ results, finished.value.isSome) :
    (outputs previous results).filter StageOutput.isLive = outputs previous results := by
  refine List.filter_eq_self.2 fun output houtput => ?_
  obtain ⟨finished, hfinished, old, hold⟩ := exists_of_mem_outputs houtput
  have hsome := h finished hfinished
  rw [isLive_of_output? hold] at hsome
  by_contra hnot
  rw [if_neg hnot] at hsome
  cases hsome

variable {complete : Bool}

/-- What a run removes at its end does not count as recalled. -/
theorem countP_cached_settledOutputs (h : ∀ finished ∈ results, finished.value.isSome) :
    (settledOutputs previous results complete).countP (fun output => output.reason = .cached) =
      results.countP Finished.recalled := by
  rw [List.countP_eq_length_filter, filter_settledOutputs fun _ _ => by simp,
    (ascendingBy_perm _ _).length_eq, ← List.countP_eq_length_filter,
    Finished.countP_cached_outputs previous h]

end Settled

namespace MemoStage

/-- What is computed is what is not recalled. -/
theorem countP_results_eq_length (outcomes : List (Outcome κ ι ω)) :
    (results outcomes).countP (fun finished => !finished.recalled) =
      (Outcome.computedInputs outcomes).length := by
  rw [Outcome.computedInputs, List.length_map, ← List.countP_eq_length_filter]
  induction outcomes with
  | nil => rfl
  | cons outcome rest ih =>
    rw [List.countP_cons, ← ih]
    obtain ⟨job, answer⟩ := outcome
    cases answer with
    | none => rfl
    | some answer => exact List.countP_cons

variable [Ord κ] [Ord ι] [TransOrd ι]
variable {stage : MemoStage κ ι ω} {call : Call κ ι ω}

/-- The results of a call: each answered item under its key. -/
def finishedBy (stage : MemoStage κ ι ω) (call : Call κ ι ω) : List (Finished κ ω) :=
  (stage.answeredJobs call).map fun job =>
    ⟨job.key, some (stage.answerOf call job).value, (stage.answerOf call job).recalled⟩

/-- The answers of a call: each answered item under its input. -/
def answersGiven (stage : MemoStage κ ι ω) (call : Call κ ι ω) : List (ι × ω) :=
  (stage.answeredJobs call).map fun job => (job.input, (stage.answerOf call job).value)

/-- The results of the sweep of a call. -/
theorem results_sweep : results (sweep (stage.memo[·]?) call.compute call.flag call.jobs) =
    stage.finishedBy call :=
  filterMap_sweep fun job answer => (⟨job.key, some answer.value, answer.recalled⟩ : Finished κ ω)

/-- And its answers. -/
theorem answers_sweep : answers (sweep (stage.memo[·]?) call.compute call.flag call.jobs) =
    stage.answersGiven call :=
  filterMap_sweep fun job answer => (job.input, answer.value)

theorem isSome_value_of_mem_finishedBy {finished : Finished κ ω}
    (h : finished ∈ stage.finishedBy call) : finished.value.isSome := by
  obtain ⟨job, -, rfl⟩ := List.mem_map.1 h
  rfl

@[simp]
theorem mem_kept_finishedBy {key : κ} {value : ω} :
    (key, value) ∈ Finished.kept (stage.finishedBy call) ↔
      ∃ job ∈ stage.answeredJobs call, job.key = key ∧ (stage.answerOf call job).value = value := by
  simp [Finished.mem_kept, finishedBy]

@[simp]
theorem map_key_finishedBy :
    (stage.finishedBy call).map Finished.key = (stage.answeredJobs call).map Job.key := by
  rw [finishedBy, List.map_map]
  rfl

/-- What is answered are items of the call, in their order. -/
theorem answeredJobs_sublist (stage : MemoStage κ ι ω) (call : Call κ ι ω) :
    (stage.answeredJobs call).Sublist call.jobs :=
  answered_sublist _ _ _

/-- **Which items are answered**: those whose inputs are memoized, and those
that are computed. -/
theorem mem_answeredJobs {job : Job κ ι} : job ∈ stage.answeredJobs call ↔
    job ∈ call.jobs ∧ stage.memo[job.input]?.isSome ∨ job ∈ stage.begunJobs call :=
  mem_answered

/-- What is computed are items whose inputs are not memoized. -/
theorem of_mem_begunJobs {job : Job κ ι} (h : job ∈ stage.begunJobs call) :
    job ∈ call.jobs ∧ stage.memo[job.input]? = none := by
  have hpending := (begun_sublist _ _).subset h
  rw [pending, List.mem_filter, Option.isNone_iff_eq_none] at hpending
  exact hpending

/-- Items with distinct keys have results with distinct keys. -/
theorem nodup_keys_finishedBy (stage : MemoStage κ ι ω) (h : call.Distinct) :
    ((stage.finishedBy call).map Finished.key).Nodup := by
  rw [map_key_finishedBy]
  exact h.sublist ((stage.answeredJobs_sublist call).map _)

/-- An answer is recalled exactly if the memo has the input. -/
theorem recalled_answerOf (stage : MemoStage κ ι ω) (call : Call κ ι ω) (job : Job κ ι) :
    (stage.answerOf call job).recalled = stage.memo[job.input]?.isSome := by
  cases hmemo : stage.memo[job.input]? with
  | some value => rw [answerOf, answerTo_of_known hmemo]; rfl
  | none => rw [answerOf, answerTo_of_unknown hmemo]; rfl

/-- What the memo has of an input is the answer to it. -/
theorem value_answerOf_of_known {job : Job κ ι} {value : ω}
    (h : stage.memo[job.input]? = some value) : (stage.answerOf call job).value = value := by
  rw [answerOf, answerTo_of_known h]

/-- What the memo does not have is computed. -/
theorem value_answerOf_of_unknown {job : Job κ ι} (h : stage.memo[job.input]? = none) :
    (stage.answerOf call job).value = call.compute job.input := by
  rw [answerOf, answerTo_of_unknown h]

@[simp]
theorem mem_answersGiven {input : ι} {value : ω} : (input, value) ∈ stage.answersGiven call ↔
    ∃ job ∈ stage.answeredJobs call, job.input = input ∧
      (stage.answerOf call job).value = value := by
  simp [answersGiven]

@[simp]
theorem map_fst_answersGiven :
    (stage.answersGiven call).map Prod.fst = (stage.answeredJobs call).map Job.input := by
  rw [answersGiven, List.map_map]
  rfl

/-- No input is answered in two ways. -/
theorem eq_of_mem_answersGiven {p q : ι × ω} (hp : p ∈ stage.answersGiven call)
    (hq : q ∈ stage.answersGiven call) (hinput : p.1 = q.1) : p.2 = q.2 := by
  obtain ⟨job, -, rfl⟩ := List.mem_map.1 hp
  obtain ⟨other, -, rfl⟩ := List.mem_map.1 hq
  rw [answerOf, answerOf, show job.input = other.input from hinput]

variable [TransOrd κ] [DecidableEq ω]

/-- **When a run goes to its end**: the flag is down, and no item that is
computed calls the run off. -/
theorem complete_serve : (stage.serve call).report.complete =
    !(call.flag || (stage.begunJobs call).any Job.cancels) :=
  congrArg (!·) flagAfter_sweep_eq_begun

/-- A run to the end answers every item. -/
theorem answeredJobs_of_complete (h : (stage.serve call).report.complete = true) :
    stage.answeredJobs call = call.jobs :=
  answered_of_complete (flagAfter_of_complete h)

theorem outputs_serve : (stage.serve call).report.outputs =
    settledOutputs stage.previous (stage.finishedBy call) (stage.serve call).report.complete := by
  rw [← results_sweep]
  rfl

theorem memo_serve : (stage.serve call).stage.memo =
    settledMemo stage.memo (stage.answersGiven call) (stage.serve call).report.complete := by
  rw [← answers_sweep]
  rfl

theorem previous_serve : (stage.serve call).stage.previous =
    settledTable stage.previous (stage.finishedBy call) (stage.serve call).report.complete := by
  rw [← results_sweep]
  rfl

/-- **What is computed**: the items without a memoized input, in order, up to
the first that calls the run off. -/
theorem computed_serve :
    (stage.serve call).computed = (stage.begunJobs call).map Job.input :=
  computedInputs_sweep

/-! ## The report -/

/-- **One live output for each answered item**, sorted by key; items of one
key keep their order. -/
theorem forall₂_live_serve :
    List.Forall₂ (fun job output => output.key = job.key ∧
        output.value = (stage.answerOf call job).value ∧
        (output.reason = .cached ↔ stage.memo[job.input]?.isSome))
      (ascendingBy Job.key (stage.answeredJobs call)) (stage.serve call).report.live := by
  have houtputs : List.Forall₂ (fun finished output => output.key = finished.key ∧
      some output.value = finished.value ∧ (output.reason = .cached ↔ finished.recalled))
      (stage.finishedBy call) (Finished.outputs stage.previous (stage.finishedBy call)) := by
    refine Finished.forall₂_outputs fun finished hfinished old => ?_
    obtain ⟨job, -, rfl⟩ := List.mem_map.1 hfinished
    refine ⟨_, rfl, rfl, rfl, ?_⟩
    cases (stage.answerOf call job).recalled <;> simp [Finished.reasonAgainst_ne_cached]
  rw [finishedBy, List.forall₂_map_left_iff, ← finishedBy] at houtputs
  rw [StageReport.live, outputs_serve, live_settledOutputs,
    Finished.filter_isLive_outputs fun _ hfinished => isSome_value_of_mem_finishedBy hfinished]
  refine forall₂_ascendingBy (houtputs.imp fun job output h => ?_) fun _ _ h => h.1
  rw [← recalled_answerOf stage call]
  exact ⟨h.1, Option.some.inj h.2.1, h.2.2⟩

/-- **What is recalled is counted** by the hits, -/
theorem hits_serve : (stage.serve call).report.hits = (stage.serve call).report.count .cached := by
  have hhits : (stage.serve call).report.hits =
      (stage.finishedBy call).countP Finished.recalled := by
    rw [← results_sweep]
    rfl
  rw [hhits, StageReport.count, outputs_serve,
    countP_cached_settledOutputs fun _ hfinished => isSome_value_of_mem_finishedBy hfinished]

/-- and what is computed by the misses. -/
theorem misses_serve :
    (stage.serve call).report.misses = (stage.serve call).computed.length :=
  countP_results_eq_length _

variable [LawfulEqOrd κ]

/-- **The live pairs are those of the answered items** where the items ascend. -/
theorem livePairs_serve (h : AscendsBy Job.key call.jobs) :
    (stage.serve call).report.livePairs =
      (stage.answeredJobs call).map fun job => (job.key, (stage.answerOf call job).value) := by
  have hanswered : AscendsBy Prod.fst ((stage.answeredJobs call).map fun job =>
      (job.key, (stage.answerOf call job).value)) :=
    ascendsBy_map.2 (h.sublist (stage.answeredJobs_sublist call))
  have hkept : Finished.kept (stage.finishedBy call) =
      (stage.answeredJobs call).map fun job => (job.key, (stage.answerOf call job).value) := by
    rw [Finished.kept, finishedBy, List.filterMap_map]
    exact congrFun List.filterMap_eq_map' _
  rw [StageReport.livePairs, StageReport.live, outputs_serve, livePairs_settled, hkept,
    hanswered.ascendingBy_eq]

/-- The outputs ascend strictly. -/
theorem ascendsBy_outputs_serve (h : call.Distinct) :
    AscendsBy StageOutput.key (stage.serve call).report.outputs := by
  rw [outputs_serve]
  exact ascendsBy_settledOutputs (stage.nodup_keys_finishedBy h)

/-- **The live outputs, one by one**: what is recalled says so, and what is
computed is held against the remembered value of its key. -/
theorem mem_live_serve (h : call.Distinct) {output : StageOutput κ ω} :
    output ∈ (stage.serve call).report.live ↔ ∃ job ∈ stage.answeredJobs call,
      output = ⟨job.key, (stage.answerOf call job).value,
        if (stage.answerOf call job).recalled then .cached
        else reasonAgainst stage.previous[job.key]? (stage.answerOf call job).value⟩ := by
  rw [StageReport.live, outputs_serve, List.mem_filter,
    mem_settledOutputs (stage.nodup_keys_finishedBy h)]
  constructor
  · rintro ⟨⟨finished, hfinished, houtput⟩ | ⟨-, hremoved, -⟩, hlive⟩
    · obtain ⟨job, hjob, rfl⟩ := List.mem_map.1 hfinished
      exact ⟨job, hjob, (Option.some.inj houtput).symm⟩
    · simp [StageOutput.isLive, hremoved] at hlive
  · rintro ⟨job, hjob, rfl⟩
    refine ⟨.inl ⟨_, List.mem_map_of_mem hjob, rfl⟩, ?_⟩
    simp only [StageOutput.isLive, decide_eq_true_eq]
    split
    · exact StepReason.noConfusion
    · exact Finished.reasonAgainst_ne_removed _ _

/-- **What is removed**: the remembered keys that a run to the end has no
item for. -/
theorem mem_removed_serve (h : call.Distinct) {key : κ} {value : ω} :
    ⟨key, value, .removed⟩ ∈ (stage.serve call).report.outputs ↔
      (stage.serve call).report.complete = true ∧ key ∉ call.jobs.map Job.key ∧
        stage.previous[key]? = some value := by
  rw [outputs_serve, mem_settledOutputs (stage.nodup_keys_finishedBy h), map_key_finishedBy]
  constructor
  · rintro (⟨finished, hfinished, houtput⟩ | ⟨hcomplete, -, hkey, hprevious⟩)
    · -- a result with a value is not removed
      have hsome := isSome_value_of_mem_finishedBy hfinished
      rw [Finished.isLive_of_output? houtput] at hsome
      cases hsome
    · rw [answeredJobs_of_complete hcomplete] at hkey
      exact ⟨hcomplete, hkey, hprevious⟩
  · rintro ⟨hcomplete, hkey, hprevious⟩
    rw [answeredJobs_of_complete hcomplete]
    exact .inr ⟨hcomplete, rfl, hkey, hprevious⟩

/-- A key without an answered item is reported, if at all, as removed. -/
theorem key_mem_of_mem_outputs (h : call.Distinct) {output : StageOutput κ ω}
    (houtput : output ∈ (stage.serve call).report.outputs) :
    output.key ∈ (stage.answeredJobs call).map Job.key ∨
      (stage.serve call).report.complete = true ∧ output.key ∉ call.jobs.map Job.key := by
  by_cases hlive : output.isLive
  · obtain ⟨job, hjob, rfl⟩ := (mem_live_serve h).1 (List.mem_filter.2 ⟨houtput, hlive⟩)
    exact .inl (List.mem_map_of_mem hjob)
  · obtain ⟨key, value, reason⟩ := output
    obtain rfl : reason = .removed := by simpa [StageOutput.isLive] using hlive
    obtain ⟨hcomplete, hkey, -⟩ := (mem_removed_serve h).1 houtput
    exact .inr ⟨hcomplete, hkey⟩

/-! ## The caches -/

/-- **What is remembered of keys**: the answers of the run, and of what it
does not answer, if it is called off, what was remembered before. -/
theorem getElem?_previous_serve (h : call.Distinct) {key : κ} {value : ω} :
    (stage.serve call).stage.previous[key]? = some value ↔
      (∃ job ∈ stage.answeredJobs call, job.key = key ∧
        (stage.answerOf call job).value = value) ∨
      (stage.serve call).report.complete = false ∧
        key ∉ (stage.answeredJobs call).map Job.key ∧ stage.previous[key]? = some value := by
  have hnodup := stage.nodup_keys_finishedBy h
  rw [previous_serve]
  cases (stage.serve call).report.complete with
  | true => rw [settledTable_of_complete hnodup, mem_kept_finishedBy]; simp
  | false => rw [settledTable_of_cancelled hnodup, mem_kept_finishedBy, map_key_finishedBy]; simp

/-- So a key is remembered if the run answers it, or if the run is called off
and the key was remembered before. -/
theorem isSome_previous_serve (h : call.Distinct) {key : κ} :
    (stage.serve call).stage.previous[key]?.isSome ↔
      (∃ job ∈ stage.answeredJobs call, job.key = key) ∨
      (stage.serve call).report.complete = false ∧ stage.previous[key]?.isSome := by
  simp only [Option.isSome_iff_exists, getElem?_previous_serve h]
  constructor
  · rintro ⟨value, ⟨job, hjob, hkey, -⟩ | ⟨hcancelled, -, hvalue⟩⟩
    · exact .inl ⟨job, hjob, hkey⟩
    · exact .inr ⟨hcancelled, value, hvalue⟩
  · rintro (⟨job, hjob, hkey⟩ | ⟨hcancelled, value, hvalue⟩)
    · exact ⟨_, .inl ⟨job, hjob, hkey, rfl⟩⟩
    · by_cases hmem : key ∈ (stage.answeredJobs call).map Job.key
      · obtain ⟨job, hjob, hkey⟩ := List.mem_map.1 hmem
        exact ⟨_, .inl ⟨job, hjob, hkey, rfl⟩⟩
      · exact ⟨value, .inr ⟨hcancelled, hmem, hvalue⟩⟩

omit [LawfulEqOrd κ] in
/-- **What is remembered of inputs**: the answers of the run, and what the
memo had before, if the run is called off. -/
theorem getElem?_memo_serve [LawfulEqOrd ι] {input : ι} {value : ω} :
    (stage.serve call).stage.memo[input]? = some value ↔
      (∃ job ∈ stage.answeredJobs call, job.input = input ∧
        (stage.answerOf call job).value = value) ∨
      (stage.serve call).report.complete = false ∧ stage.memo[input]? = some value := by
  have hagree : ∀ p ∈ stage.answersGiven call, ∀ q ∈ stage.answersGiven call,
      p.1 = q.1 → p.2 = q.2 := fun _ hp _ hq => eq_of_mem_answersGiven hp hq
  rw [memo_serve, settledMemo, getElem?_insertMany_of_agree hagree, mem_answersGiven,
    map_fst_answersGiven]
  cases (stage.serve call).report.complete with
  | true => simp
  | false =>
    simp only [Bool.false_eq_true, if_false, true_and]
    constructor
    · rintro (hanswer | ⟨-, hmemo⟩)
      · exact .inl hanswer
      · exact .inr hmemo
    · rintro (hanswer | hmemo)
      · exact .inl hanswer
      · by_cases hmem : input ∈ (stage.answeredJobs call).map Job.input
        · -- what the memo has of an answered input is what the answer is
          obtain ⟨job, hjob, rfl⟩ := List.mem_map.1 hmem
          exact .inl ⟨job, hjob, rfl, value_answerOf_of_known hmemo⟩
        · exact .inr ⟨hmem, hmemo⟩

omit [LawfulEqOrd κ] in
/-- **The next call computes nothing over again**, however either of the two
ends: what this one has computed it finds in the memo. -/
theorem disjoint_computed_serve [LawfulEqOrd ι] (stage : MemoStage κ ι ω)
    (call next : Call κ ι ω) :
    List.Disjoint (stage.serve call).computed ((stage.serve call).stage.serve next).computed := by
  rw [computed_serve, computed_serve]
  rintro _ hnow hnext
  obtain ⟨job, hjob, rfl⟩ := List.mem_map.1 hnow
  obtain ⟨later, hlater, hinput⟩ := List.mem_map.1 hnext
  have hmemo : (stage.serve call).stage.memo[job.input]? =
      some (stage.answerOf call job).value :=
    getElem?_memo_serve.2 (.inl ⟨job, mem_answeredJobs.2 (.inr hjob), rfl, rfl⟩)
  have hnone := (of_mem_begunJobs hlater).2
  rw [hinput, hmemo] at hnone
  cases hnone

end MemoStage

end BuilderForge

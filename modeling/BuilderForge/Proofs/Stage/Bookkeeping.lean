import BuilderForge.Proofs.Stage.Serving

/-!
# The caches against the history

The two caches of a memo stage are moved, overwritten, pruned or put back,
depending on how a run ends. What they hold all the same is a function of
what was reported: the items that were finished since the last run to the end
(`MemoStage.Reflects`). Every call keeps this up (`Reflects.serve`), and what
a call does and reports is fixed by the caches it finds
(`MemoStage.keepsBooks`). Both need that no call has two items for one key.
-/

namespace BuilderForge

open Std

variable {κ ι ω : Type} [Ord κ] [Ord ι] [TransOrd κ] [TransOrd ι]

namespace MemoStage

/-- **The caches reflect the runs in the past**. -/
structure Reflects [DecidableEq κ] (stage : MemoStage κ ι ω) (runs : List (Served κ ι ω)) :
    Prop where
  /-- A run to the end finished all its items. -/
  ended : ∀ run ∈ runs, run.report.complete = true → ∀ job ∈ run.jobs,
    ∃ value, run.Finishes job value
  /-- The memo has the inputs of the items that were finished since the last
  run to the end, this one included, with the values they were given. -/
  memo : ∀ input value, stage.memo[input]? = some value ↔
    ∃ run ∈ sinceComplete runs, ∃ job, run.Finishes job value ∧ job.input = input
  /-- The remembered keys are those of the same items. -/
  previous : ∀ key, stage.previous[key]?.isSome ↔
    ∃ run ∈ sinceComplete runs, ∃ job value, run.Finishes job value ∧ job.key = key
  /-- A remembered key has the value that was last reported for it. -/
  latest : ∀ key value, stage.previous[key]? = some value →
    ∃ output, lastReported runs key = some output ∧ output.isLive ∧ output.value = value

/-- **What a call does and reports**, given the caches it finds. -/
structure KeepsBooks [DecidableEq ω] (stage : MemoStage κ ι ω) (call : Call κ ι ω) : Prop where
  /-- The items whose inputs are not memoized are computed, each once and in
  order, up to the first that calls the run off; no others are. -/
  computed : (stage.serve call).computed =
    (begun call.flag (pending (stage.memo[·]?) call.jobs)).map Job.input
  /-- The run goes to its end if the flag was down and nothing that is
  computed raises it. -/
  complete : (stage.serve call).report.complete =
    !(call.flag || (begun call.flag (pending (stage.memo[·]?) call.jobs)).any Job.cancels)
  /-- A run to the end finishes all its items. -/
  covers : (stage.serve call).report.complete = true → ∀ job ∈ call.jobs,
    ∃ output ∈ (stage.serve call).report.live, output.key = job.key
  /-- The live outputs are those of the items that are finished: a memoized
  input is recalled, and a value that is computed is compared with what is
  remembered of the key. -/
  live : ∀ output, output ∈ (stage.serve call).report.live ↔ ∃ job ∈ call.jobs,
    output.key = job.key ∧
      (stage.memo[job.input]? = some output.value ∧ output.reason = .cached ∨
        job ∈ begun call.flag (pending (stage.memo[·]?) call.jobs) ∧
          output.value = call.compute job.input ∧
          output.reason = reasonAgainst stage.previous[job.key]? output.value)
  /-- A run to the end removes the remembered keys that have no item, with
  what is remembered of them; a run that is called off removes nothing. -/
  removed : ∀ key value, ⟨key, value, .removed⟩ ∈ (stage.serve call).report.outputs ↔
    (stage.serve call).report.complete = true ∧ key ∉ call.jobs.map Job.key ∧
      stage.previous[key]? = some value
  ascends : AscendsBy StageOutput.key (stage.serve call).report.outputs
  hits : (stage.serve call).report.hits = (stage.serve call).report.count .cached
  misses : (stage.serve call).report.misses = (stage.serve call).computed.length

/-- A stage that has not run yet reflects that there are no runs. -/
theorem reflects_empty [DecidableEq κ] (name : StageName) :
    (empty name : MemoStage κ ι ω).Reflects [] where
  ended _ h := by cases h
  memo := by simp [empty, sinceComplete]
  previous := by simp [empty, sinceComplete]
  latest _ _ h := by simp [empty] at h

variable [DecidableEq ω] [LawfulEqOrd κ]
variable {stage : MemoStage κ ι ω} {runs : List (Served κ ι ω)} {call : Call κ ι ω}

/-- **What a run finishes** is what the stage answers, as it answers it. -/
theorem finishes_serve (h : call.Distinct) {job : Job κ ι} {value : ω} :
    Served.Finishes ⟨call.jobs, (stage.serve call).report⟩ job value ↔
      job ∈ stage.answeredJobs call ∧ (stage.answerOf call job).value = value := by
  constructor
  · rintro ⟨hjob, output, houtput, hkey, rfl⟩
    obtain ⟨other, hother, rfl⟩ := (mem_live_serve h).1 houtput
    -- the output is that of an item with the same key, which is the item itself
    obtain rfl : other = job :=
      List.inj_on_of_nodup_map h ((stage.answeredJobs_sublist call).subset hother) hjob hkey
    exact ⟨hother, rfl⟩
  · rintro ⟨hjob, rfl⟩
    exact ⟨(stage.answeredJobs_sublist call).subset hjob, _,
      (mem_live_serve h).2 ⟨job, hjob, rfl⟩, rfl, rfl⟩

/-- A run to the end finishes all its items. -/
theorem finishes_of_complete (h : call.Distinct)
    (hcomplete : (stage.serve call).report.complete = true) {job : Job κ ι}
    (hjob : job ∈ call.jobs) :
    ∃ value, Served.Finishes ⟨call.jobs, (stage.serve call).report⟩ job value := by
  rw [← answeredJobs_of_complete hcomplete] at hjob
  exact ⟨_, (finishes_serve h).2 ⟨hjob, rfl⟩⟩

/-- **What a call does and reports** follows from the caches it finds. -/
theorem keepsBooks (stage : MemoStage κ ι ω) (h : call.Distinct) : stage.KeepsBooks call where
  computed := computed_serve
  complete := complete_serve
  covers hcomplete job hjob := by
    obtain ⟨value, -, output, houtput, hkey, -⟩ := finishes_of_complete h hcomplete hjob
    exact ⟨output, houtput, hkey⟩
  live output := by
    rw [mem_live_serve h]
    constructor
    · rintro ⟨job, hjob, rfl⟩
      refine ⟨job, (stage.answeredJobs_sublist call).subset hjob, rfl, ?_⟩
      rcases mem_answeredJobs.1 hjob with ⟨-, hsome⟩ | hbegun
      · obtain ⟨value, hvalue⟩ := Option.isSome_iff_exists.1 hsome
        refine .inl ⟨?_, if_pos (recalled_answerOf stage call job ▸ hsome)⟩
        rw [hvalue, value_answerOf_of_known hvalue]
      · have hnone := (of_mem_begunJobs hbegun).2
        refine .inr ⟨hbegun, value_answerOf_of_unknown hnone, if_neg ?_⟩
        rw [recalled_answerOf, hnone]
        exact Bool.false_ne_true
    · obtain ⟨key, value, reason⟩ := output
      rintro ⟨job, hjob, rfl, ⟨hmemo, rfl⟩ | ⟨hbegun, rfl, hreason⟩⟩
      · refine ⟨job, mem_answeredJobs.2 (.inl ⟨hjob, by rw [hmemo]; rfl⟩), ?_⟩
        rw [value_answerOf_of_known hmemo, recalled_answerOf, hmemo]
        rfl
      · have hnone := (of_mem_begunJobs hbegun).2
        refine ⟨job, mem_answeredJobs.2 (.inr hbegun), ?_⟩
        rw [value_answerOf_of_unknown hnone, recalled_answerOf, hnone]
        exact congrArg (StageOutput.mk job.key (call.compute job.input)) hreason
  removed _ _ := mem_removed_serve h
  ascends := ascendsBy_outputs_serve h
  hits := hits_serve
  misses := misses_serve

variable [DecidableEq κ]

/-- What the stage answers is the last that is reported for the key. -/
theorem find?_outputs_of_answered (h : call.Distinct) {job : Job κ ι}
    (hjob : job ∈ stage.answeredJobs call) :
    ∃ output, (stage.serve call).report.outputs.find? (fun output => output.key = job.key) =
        some output ∧ output.isLive ∧ output.value = (stage.answerOf call job).value := by
  obtain ⟨houtput, hlive⟩ := List.mem_filter.1 ((mem_live_serve h).2 ⟨job, hjob, rfl⟩)
  exact ⟨_, (find?_key_eq_some_iff (ascendsBy_outputs_serve h).nodup_keys).2 ⟨houtput, rfl⟩,
    hlive, rfl⟩

/-- A run that is called off reports nothing of what it does not answer. -/
theorem find?_outputs_of_not_answered (h : call.Distinct) {key : κ}
    (hcancelled : (stage.serve call).report.complete = false)
    (hkey : key ∉ (stage.answeredJobs call).map Job.key) :
    (stage.serve call).report.outputs.find? (fun output => output.key = key) = none := by
  rw [find?_key_eq_none_iff]
  intro hmem
  obtain ⟨output, houtput, rfl⟩ := List.mem_map.1 hmem
  rcases key_mem_of_mem_outputs h houtput with hanswered | ⟨hcomplete, -⟩
  · exact hkey hanswered
  · rw [hcancelled] at hcomplete
    cases hcomplete

/-- **A call keeps the caches in step** with what is reported, whether it goes
to its end or not. -/
theorem Reflects.serve [LawfulEqOrd ι] (hreflects : stage.Reflects runs) (h : call.Distinct) :
    (stage.serve call).stage.Reflects (runs ++ [⟨call.jobs, (stage.serve call).report⟩]) where
  ended run hrun hcomplete job hjob := by
    rcases List.mem_append.1 hrun with hearlier | hlast
    · exact hreflects.ended run hearlier hcomplete job hjob
    · obtain rfl := List.mem_singleton.1 hlast
      exact finishes_of_complete h hcomplete hjob
  memo input value := by
    rw [getElem?_memo_serve, exists_sinceComplete_concat, hreflects.memo]
    simp only [finishes_serve h, and_assoc, and_comm (a := _ = value)]
  previous key := by
    rw [isSome_previous_serve h, exists_sinceComplete_concat, hreflects.previous]
    simp only [finishes_serve h]
    refine or_congr_left ⟨?_, ?_⟩
    · rintro ⟨job, hjob, hkey⟩
      exact ⟨job, _, ⟨hjob, rfl⟩, hkey⟩
    · rintro ⟨job, _, ⟨hjob, -⟩, hkey⟩
      exact ⟨job, hjob, hkey⟩
  latest key value hvalue := by
    rw [lastReported_concat]
    rcases (getElem?_previous_serve h).1 hvalue with
      ⟨job, hjob, rfl, rfl⟩ | ⟨hcancelled, hkey, hprevious⟩
    · obtain ⟨output, hfind, hlast⟩ := find?_outputs_of_answered h hjob
      exact ⟨output, by rw [hfind]; rfl, hlast⟩
    · rw [find?_outputs_of_not_answered h hcancelled hkey, Option.none_or]
      exact hreflects.latest key value hprevious

/-- The caches reflect every history of calls whose items have distinct keys. -/
theorem reflects_after [LawfulEqOrd ι] (name : StageName) (history : List (Call κ ι ω))
    (h : ∀ call ∈ history, call.Distinct) :
    ((empty name).after history).Reflects ((empty name).served history) := by
  refine after_induction _ history (reflects_empty name) ?_ h
  intro stage runs call hreflects hcall
  exact hreflects.serve hcall

/-- **The books of a memo stage are kept over every history.** Before each
call the caches reflect the runs so far: the memo has the inputs that were
finished since the last run to the end, the remembered keys are those of the
same items, and each has the value that was last reported for it. And the
call computes what the memo does not have, no more and in order, tells for
each output how it compares with what is remembered, and removes, if it goes
to its end, what is remembered and has no item. -/
theorem memo_books_kept [LawfulEqOrd ι] (name : StageName) (history : List (Call κ ι ω))
    (call : Call κ ι ω) (h : ∀ each ∈ history ++ [call], each.Distinct) :
    ((empty name).after history).Reflects ((empty name).served history) ∧
      ((empty name).after history).KeepsBooks call := by
  have hhistory : ∀ each ∈ history, each.Distinct := fun each heach =>
    h each (List.mem_append_left _ heach)
  have hcall : call.Distinct := h call (List.mem_append_right _ (List.mem_singleton_self call))
  exact ⟨reflects_after name history hhistory, keepsBooks _ hcall⟩

/-- Two runs: one to the end, over two items with the same input, and one
that its first item calls off. -/
def interrupted : List (Call String String String) :=
  [⟨[⟨"a", "x", false⟩, ⟨"b", "x", false⟩], id, false⟩,
    ⟨[⟨"b", "y", true⟩, ⟨"c", "z", false⟩], id, false⟩]

/-- The second of them to the end. -/
def resumed : Call String String String :=
  ⟨[⟨"b", "y", false⟩, ⟨"c", "z", false⟩], id, false⟩

/-- The memo has what either run finished, so only what was left out is
computed; and the key that the first run alone had is removed. -/
theorem memo_books_kept_of_interrupted :
    (∀ each ∈ interrupted ++ [resumed], each.Distinct) ∧
      ((empty .emission).after interrupted).Reflects ((empty .emission).served interrupted) ∧
      ((empty .emission).after interrupted).KeepsBooks resumed ∧
      (((empty .emission).after interrupted).serve resumed).computed = ["z"] ∧
      ⟨"a", "x", .removed⟩ ∈
        (((empty .emission).after interrupted).serve resumed).report.outputs := by
  have hdistinct : ∀ each ∈ interrupted ++ [resumed], each.Distinct := by decide
  obtain ⟨hreflects, hbooks⟩ := memo_books_kept .emission interrupted resumed hdistinct
  refine ⟨hdistinct, hreflects, hbooks, ?_, (hbooks.removed "a" "x").2 ⟨?_, by decide, ?_⟩⟩
  · rw [hbooks.computed]
    decide +kernel
  · rw [hbooks.complete]
    decide +kernel
  · decide +kernel

end MemoStage

end BuilderForge

import BuilderForge.Proofs.Stage.Memory

/-!
# Reports that account for a run

A report is exact if every reason in it can be told from two descriptions
alone: what each key had in the last complete run, and what it has now.
`StageReport.Accounts` says so. A memo stage looks at neither of them; it
asks the memo for inputs and the remembered outputs for keys. That its
report accounts for the run all the same (`Remembers.accounts`) is where an
input has to determine its key.
-/

namespace BuilderForge

open Std

variable {κ ι ω : Type} [DecidableEq ι] [DecidableEq ω]

/-- The reason for a value, given the input and the value that the key had
in the last complete run: recalled if the input is the same, and otherwise
computed anew and compared with the old value, if there is one. -/
def reasonAfter (was : Option (ι × ω)) (input : ι) (value : ω) : StepReason :=
  match was with
  | none => .new
  | some (oldInput, oldValue) =>
    if oldInput = input then .cached else if oldValue = value then .unchanged else .modified

/-- A reason that comes from a comparison is never that of a removed
output. -/
theorem reasonAfter_ne_removed (old : Option (ι × ω)) (input : ι) (value : ω) :
    reasonAfter old input value ≠ .removed := by
  unfold reasonAfter
  split
  · simp
  · split
    · simp
    · split <;> simp

/-- A reason that counts as reused tells that the key had the value, if its
values were computed. -/
theorem was_of_isReused {compute : ι → ω} {was : Option (ι × ω)} {input : ι} {value : ω}
    (hsound : ∀ oldInput oldValue, was = some (oldInput, oldValue) → oldValue = compute oldInput)
    (hvalue : value = compute input) (h : (reasonAfter was input value).isReused) :
    ∃ oldInput, was = some (oldInput, value) := by
  cases was with
  | none => cases h
  | some old =>
    obtain ⟨oldInput, oldValue⟩ := old
    refine ⟨oldInput, ?_⟩
    rw [reasonAfter] at h
    -- an equal input has an equal value, and otherwise the values were compared
    by_cases hinput : oldInput = input
    · rw [hsound _ _ rfl, hvalue, hinput]
    · rw [if_neg hinput] at h
      by_cases heq : oldValue = value
      · rw [heq]
      · rw [if_neg heq] at h
        cases h

/-- **A report accounts for its run**, given the inputs and values that the
keys had in the last complete run and those that they have now. -/
structure StageReport.Accounts [Ord κ] (report : StageReport κ ω)
    (was now : κ → Option (ι × ω)) : Prop where
  /-- No key has two outputs. -/
  ascends : AscendsBy StageOutput.key report.outputs
  /-- Every key that is there now has a live output. -/
  covers : ∀ key, (now key).isSome → ∃ output ∈ report.live, output.key = key
  /-- Every live output has the value of its key, and its reason tells how
  that compares with the last complete run. -/
  reasons : ∀ output ∈ report.live, ∃ input, now output.key = some (input, output.value) ∧
    output.reason = reasonAfter (was output.key) input output.value
  /-- The removed outputs are the keys that were there and are not any more,
  each with the value that it had. -/
  removed : ∀ key value, ⟨key, value, .removed⟩ ∈ report.outputs ↔
    (∃ input, was key = some (input, value)) ∧ now key = none
  /-- What was computed is exactly what was not recalled. -/
  misses : report.misses = (report.live.filter fun output => output.reason ≠ .cached).length
  /-- An output that counts as reused has the value that its key had. -/
  reused : ∀ output ∈ report.live, output.reason.isReused →
    ∃ input, was output.key = some (input, output.value)

/-- The keys that are there now are exactly those with a live output. -/
theorem StageReport.Accounts.isSome_iff [Ord κ] {report : StageReport κ ω}
    {was now : κ → Option (ι × ω)} (h : report.Accounts was now) {key : κ} :
    (now key).isSome ↔ ∃ output ∈ report.live, output.key = key := by
  refine ⟨h.covers key, ?_⟩
  rintro ⟨output, houtput, rfl⟩
  obtain ⟨input, hnow, -⟩ := h.reasons output houtput
  exact Option.isSome_iff_exists.2 ⟨_, hnow⟩

namespace MemoStage

variable [Ord κ] [Ord ι] [TransOrd κ] [TransOrd ι]
variable {stage : MemoStage κ ι ω} {keyOf : ι → κ} {compute : ι → ω}
variable {was now : κ → Option (ι × ω)} {jobs : List (Job κ ι)} {flag : Bool}

namespace Remembers

/-- **The reason that a stage finds is the one that the last complete run
gives**: the memo has an input exactly if the input's key had it, and the
remembered output is what the key had. -/
theorem reason_eq (h : stage.Remembers keyOf compute was) (input : ι) (value : ω) :
    (if stage.memo[input]?.isSome then StepReason.cached
      else reasonAgainst stage.previous[keyOf input]? value) =
      reasonAfter (was (keyOf input)) input value := by
  cases hmemo : stage.memo[input]? with
  | some known => simp [reasonAfter, h.was_of_known hmemo]
  | none =>
    rw [Option.isSome_none, if_neg Bool.false_ne_true]
    cases hwas : was (keyOf input) with
    | none =>
      have hprevious : stage.previous[keyOf input]? = none := by
        refine Option.eq_none_iff_forall_ne_some.2 fun old hold => ?_
        obtain ⟨oldInput, hsome⟩ := (h.previous _ _).1 hold
        rw [hwas] at hsome
        cases hsome
      rw [hprevious]
      rfl
    | some old =>
      obtain ⟨oldInput, oldValue⟩ := old
      have hprevious : stage.previous[keyOf input]? = some oldValue :=
        (h.previous _ _).2 ⟨oldInput, hwas⟩
      -- had the key the same input, the memo would know it
      have hne : oldInput ≠ input := fun heq => by
        have := (h.memo input oldValue).2 ⟨keyOf input, heq ▸ hwas⟩
        rw [hmemo] at this
        cases this
      rw [hprevious, reasonAgainst, reasonAfter, if_neg hne]

/-- A live output comes from a job, with the value of the job's input and
the reason that the last complete run gives. -/
theorem output_of_job (h : stage.Remembers keyOf compute was)
    (hkeyed : ∀ job ∈ jobs, keyOf job.input = job.key) {finished : Finished κ ω}
    (hfinished : finished ∈ stage.finishedJobs compute jobs) {output : StageOutput κ ω}
    (houtput : finished.output? stage.previous[finished.key]? = some output) :
    ∃ job ∈ jobs, output = ⟨job.key, compute job.input,
      reasonAfter (was job.key) job.input (compute job.input)⟩ := by
  obtain ⟨job, hjob, rfl⟩ := List.mem_map.1 hfinished
  refine ⟨job, hjob, ?_⟩
  rw [← hkeyed job hjob, ← h.reason_eq, hkeyed job hjob]
  exact (Option.some.inj houtput).symm

variable [LawfulEqOrd κ]

/-- The live outputs of a run to the end are those of its jobs. -/
theorem mem_live_of_complete (h : stage.Remembers keyOf compute was)
    (hcomplete : (stage.run jobs compute flag).report.complete = true)
    (hjobs : AscendsBy Job.key jobs) (hkeyed : ∀ job ∈ jobs, keyOf job.input = job.key)
    {output : StageOutput κ ω} :
    output ∈ (stage.run jobs compute flag).report.live ↔
      ∃ job ∈ jobs, output = ⟨job.key, compute job.input,
        reasonAfter (was job.key) job.input (compute job.input)⟩ := by
  have hnodup := stage.nodup_keys_finishedJobs compute hjobs
  rw [StageReport.live, h.outputs_of_complete hcomplete, List.mem_filter,
    mem_settledOutputs hnodup]
  constructor
  · rintro ⟨⟨finished, hfinished, houtput⟩ | ⟨-, hremoved, -⟩, hlive⟩
    · exact h.output_of_job hkeyed hfinished houtput
    · simp [StageOutput.isLive, hremoved] at hlive
  · rintro ⟨job, hjob, rfl⟩
    refine ⟨.inl ⟨_, List.mem_map_of_mem hjob, ?_⟩, ?_⟩
    · have hreason := h.reason_eq job.input (compute job.input)
      rw [hkeyed job hjob] at hreason
      rw [← hreason]
      rfl
    · simpa only [StageOutput.isLive, decide_eq_true_eq] using reasonAfter_ne_removed _ _ _

/-- What is removed in a run to the end is what its jobs do not have any
more. -/
theorem mem_removed_of_complete (h : stage.Remembers keyOf compute was)
    (hcomplete : (stage.run jobs compute flag).report.complete = true)
    (hjobs : AscendsBy Job.key jobs) (hkeyed : ∀ job ∈ jobs, keyOf job.input = job.key)
    {key : κ} {value : ω} :
    ⟨key, value, .removed⟩ ∈ (stage.run jobs compute flag).report.outputs ↔
      (∃ input, was key = some (input, value)) ∧ key ∉ jobs.map Job.key := by
  rw [h.outputs_of_complete hcomplete,
    mem_settledOutputs (stage.nodup_keys_finishedJobs compute hjobs), keys_finishedJobs,
    ← h.previous]
  constructor
  · rintro (⟨finished, hfinished, houtput⟩ | ⟨-, -, hnone, hprevious⟩)
    · obtain ⟨job, -, heq⟩ := h.output_of_job hkeyed hfinished houtput
      exact absurd (congrArg StageOutput.reason heq).symm (reasonAfter_ne_removed _ _ _)
    · exact ⟨hprevious, hnone⟩
  · rintro ⟨hprevious, hnone⟩
    exact .inr ⟨rfl, rfl, hnone, hprevious⟩

/-- **The report of a run to the end accounts for the run**: it compares the
jobs with what the last complete run had for their keys, however many runs
were called off in between. -/
theorem accounts (h : stage.Remembers keyOf compute was)
    (hcomplete : (stage.run jobs compute flag).report.complete = true)
    (hjobs : AscendsBy Job.key jobs) (hkeyed : ∀ job ∈ jobs, keyOf job.input = job.key)
    (hnow : Describes compute jobs now) :
    (stage.run jobs compute flag).report.Accounts was now where
  ascends := by
    rw [h.outputs_of_complete hcomplete]
    exact ascendsBy_settledOutputs (stage.nodup_keys_finishedJobs compute hjobs)
  covers key hkey := by
    obtain ⟨⟨input, value⟩, hsome⟩ := Option.isSome_iff_exists.1 hkey
    obtain ⟨job, hjob, rfl, -⟩ := (hnow _ _ _).1 hsome
    exact ⟨_, (h.mem_live_of_complete hcomplete hjobs hkeyed).2 ⟨job, hjob, rfl⟩, rfl⟩
  reasons output houtput := by
    obtain ⟨job, hjob, rfl⟩ := (h.mem_live_of_complete hcomplete hjobs hkeyed).1 houtput
    exact ⟨job.input, (hnow _ _ _).2 ⟨job, hjob, rfl, rfl, rfl⟩, rfl⟩
  removed key value := by
    rw [h.mem_removed_of_complete hcomplete hjobs hkeyed, hnow.eq_none_iff]
  misses := h.misses_of_complete hcomplete
  reused output houtput hreused := by
    obtain ⟨job, hjob, rfl⟩ := (h.mem_live_of_complete hcomplete hjobs hkeyed).1 houtput
    exact was_of_isReused (h.sound job.key) rfl hreused

end Remembers

end MemoStage

end BuilderForge

import BuilderForge.Proofs.Stage.Tracking

/-!
# Keys that are dropped

A job of a tracked stage may drop its key by giving no value. A run that is
called off reports nothing as removed for the keys that it did not come to,
and keeps what it remembers of them. For the keys that it did come to it
makes no difference that the run is called off: a key that is dropped is
reported as removed at once (`mem_outputs_of_cancelled`), and forgotten
(`isSome_previous_of_cancelled`). So it is not so that such a run removes
nothing; it removes exactly what it drops.
-/

namespace BuilderForge

open Std

variable {κ ι ω : Type}

/-- An output is removed exactly if its result has no value and its key had
one. -/
theorem Finished.output?_eq_removed_iff [DecidableEq ω] {old : Option ω}
    {finished : Finished κ ω} {key : κ} {value : ω} :
    finished.output? old = some ⟨key, value, .removed⟩ ↔
      finished.key = key ∧ finished.value = none ∧ old = some value := by
  constructor
  · intro h
    have hvalue : finished.value = none := Finished.isLive_of_output? h
    rw [output?, hvalue] at h
    obtain ⟨_, hold, heq⟩ := Option.map_eq_some_iff.1 h
    obtain ⟨rfl, rfl, -⟩ := StageOutput.mk.inj heq
    exact ⟨rfl, hvalue, hold⟩
  · rintro ⟨rfl, hvalue, rfl⟩
    rw [output?, hvalue]
    rfl

/-- A key counts as new only if it had nothing. -/
theorem Finished.eq_none_of_output?_new [DecidableEq ω] {old : Option ω} {finished : Finished κ ω}
    {output : StageOutput κ ω} (h : finished.output? old = some output)
    (hnew : output.reason = .new) : old = none := by
  unfold output? at h
  split at h
  · obtain rfl := Option.some.inj h
    cases old with
    | none => rfl
    | some _ =>
      -- a recalled value is no new one, and neither is one that is compared with another
      cases hrecalled : finished.recalled
      · rw [hrecalled, if_neg Bool.false_ne_true, reasonAgainst] at hnew
        split at hnew <;> cases hnew
      · rw [hrecalled, if_pos rfl] at hnew
        cases hnew
  · obtain ⟨_, -, rfl⟩ := Option.map_eq_some_iff.1 h
    cases hnew

namespace TrackedStage

/-- A run works on the job of a key, and the job drops it. -/
def Drops (jobs : List (Job κ ι)) (compute : ι → Option ω) (flag : Bool) (key : κ) : Prop :=
  ∃ job ∈ begun flag jobs, job.key = key ∧ compute job.input = none

variable [Ord κ] [TransOrd κ] [LawfulEqOrd κ] [DecidableEq ω]
variable {stage : TrackedStage κ ω} {jobs : List (Job κ ι)} {compute : ι → Option ω} {flag : Bool}
variable {key : κ} {value : ω}

/-- **What a run that is called off reports** are the outputs of the jobs
that it began, each held against what its key had. -/
theorem mem_outputs_of_cancelled (h : (jobs.map Job.key).Nodup)
    (hcancelled : (stage.run jobs compute flag).report.complete = false)
    {output : StageOutput κ ω} :
    output ∈ (stage.run jobs compute flag).report.outputs ↔
      ∃ job ∈ begun flag jobs, Finished.output? stage.previous[job.key]?
        ⟨job.key, compute job.input, false⟩ = some output := by
  have houtputs : (stage.run jobs compute flag).report.outputs = settledOutputs stage.previous
      (results (sweep (fun _ => none) compute flag jobs)) false := by
    rw [← hcancelled]
    rfl
  rw [houtputs, mem_settledOutputs (nodup_keys_results h), results_sweep]
  simp

/-- **What it remembers** are the values of the jobs that it began, and for
all other keys what it remembered before. -/
theorem previous_of_cancelled (h : (jobs.map Job.key).Nodup)
    (hcancelled : (stage.run jobs compute flag).report.complete = false) :
    (stage.run jobs compute flag).stage.previous[key]? = some value ↔
      (∃ job ∈ begun flag jobs, job.key = key ∧ compute job.input = some value) ∨
        (∀ job ∈ begun flag jobs, job.key ≠ key) ∧ stage.previous[key]? = some value := by
  have hprevious : (stage.run jobs compute flag).stage.previous = settledTable stage.previous
      (results (sweep (fun _ => none) compute flag jobs)) false := by
    rw [← hcancelled]
    rfl
  rw [hprevious, settledTable_of_cancelled (nodup_keys_results h), Finished.mem_kept,
    results_sweep]
  simp

/-- So a key that was remembered is forgotten exactly if it is dropped. -/
theorem isSome_previous_of_cancelled (h : (jobs.map Job.key).Nodup)
    (hcancelled : (stage.run jobs compute flag).report.complete = false)
    (hheld : stage.previous[key]?.isSome) :
    (stage.run jobs compute flag).stage.previous[key]?.isSome ↔ ¬Drops jobs compute flag key := by
  simp only [Option.isSome_iff_exists, previous_of_cancelled h hcancelled]
  constructor
  · rintro ⟨value, ⟨job, hjob, rfl, hvalue⟩ | ⟨hnone, -⟩⟩ ⟨dropping, hdropping, hkey, hdrop⟩
    · -- both jobs have the key, so they are one, and it cannot have a value and none
      have hmem : ∀ j ∈ begun flag jobs, j ∈ jobs := fun j hj =>
        (begun_sublist flag jobs).subset hj
      have heq : dropping = job :=
        List.inj_on_of_nodup_map h (hmem dropping hdropping) (hmem job hjob) hkey
      rw [heq, hvalue] at hdrop
      cases hdrop
    · exact hnone dropping hdropping hkey
  · intro hkept
    by_cases hbegun : ∃ job ∈ begun flag jobs, job.key = key
    · obtain ⟨job, hjob, hkey⟩ := hbegun
      cases hvalue : compute job.input with
      | none => exact absurd ⟨job, hjob, hkey, hvalue⟩ hkept
      | some value => exact ⟨value, .inl ⟨job, hjob, hkey, hvalue⟩⟩
    · obtain ⟨value, hvalue⟩ := Option.isSome_iff_exists.1 hheld
      exact ⟨value, .inr ⟨fun job hjob hkey => hbegun ⟨job, hjob, hkey⟩, hvalue⟩⟩

/-- No run reports a key as new that is remembered. -/
theorem reason_ne_new_of_previous (h : (jobs.map Job.key).Nodup)
    (hheld : stage.previous[key]?.isSome) {output : StageOutput κ ω}
    (houtput : output ∈ (stage.run jobs compute flag).report.outputs) (hkey : output.key = key) :
    output.reason ≠ .new := by
  intro hnew
  rcases (mem_settledOutputs (nodup_keys_results h)).1 houtput with
    ⟨finished, -, hfinished⟩ | ⟨-, hremoved, -⟩
  · have hnone := Finished.eq_none_of_output?_new hfinished hnew
    rw [← Finished.key_of_output? hfinished, hkey] at hnone
    rw [hnone] at hheld
    cases hheld
  · rw [hnew] at hremoved
    cases hremoved

/-- **A run that is called off removes exactly what it drops.** It reports a
key as removed if it is remembered and the run drops it, with the value that
it had; it forgets this key, and no other that is remembered; and what it
does not forget is not new for any later run. -/
theorem cancelled_removes_exactly_dropped (stage : TrackedStage κ ω) (jobs : List (Job κ ι))
    (compute : ι → Option ω) (flag : Bool) (h : (jobs.map Job.key).Nodup)
    (hcancelled : (stage.run jobs compute flag).report.complete = false) :
    (∀ key value, ⟨key, value, .removed⟩ ∈ (stage.run jobs compute flag).report.outputs ↔
      stage.previous[key]? = some value ∧ Drops jobs compute flag key) ∧
    ∀ key, stage.previous[key]?.isSome →
      ((stage.run jobs compute flag).stage.previous[key]?.isSome ↔
        ¬Drops jobs compute flag key) ∧
      (¬Drops jobs compute flag key →
        ∀ {ι' : Type} (later : List (Job κ ι')) (computeLater : ι' → Option ω) (flagLater : Bool),
          (later.map Job.key).Nodup →
          ∀ output ∈ ((stage.run jobs compute flag).stage.run later computeLater
            flagLater).report.outputs, output.key = key → output.reason ≠ .new) := by
  refine ⟨fun key value => ?_, fun key hheld => ?_⟩
  · simp only [mem_outputs_of_cancelled h hcancelled, Finished.output?_eq_removed_iff, Drops]
    constructor
    · rintro ⟨job, hjob, rfl, hdrop, hheld⟩
      exact ⟨hheld, job, hjob, rfl, hdrop⟩
    · rintro ⟨hheld, job, hjob, rfl, hdrop⟩
      exact ⟨job, hjob, rfl, hdrop, hheld⟩
  · have hkept := isSome_previous_of_cancelled h hcancelled hheld
    refine ⟨hkept, fun hdrops ι' later computeLater flagLater hlater output houtput hkey => ?_⟩
    exact reason_ne_new_of_previous hlater (hkept.2 hdrops) houtput hkey

/-- A stage that remembers one key. -/
def remembering (key value : String) : TrackedStage String String :=
  ((empty .initialExtraction).run [⟨key, value, false⟩] some false).stage

/-- Of two keys the first is dropped and the second one calls the run off. -/
theorem cancelled_removes_exactly_dropped_of_first :
    ((remembering "a" "x").run [⟨"a", "x", false⟩, ⟨"b", "y", true⟩]
        (fun input => if input = "x" then none else some input) false).report.complete = false ∧
      ⟨"a", "x", .removed⟩ ∈ ((remembering "a" "x").run [⟨"a", "x", false⟩, ⟨"b", "y", true⟩]
        (fun input => if input = "x" then none else some input) false).report.outputs := by
  have hcancelled : ((remembering "a" "x").run [⟨"a", "x", false⟩, ⟨"b", "y", true⟩]
      (fun input => if input = "x" then none else some input) false).report.complete = false := by
    decide +kernel
  have hheld : (remembering "a" "x").previous["a"]? = some "x" := by decide +kernel
  obtain ⟨hremoved, -⟩ := cancelled_removes_exactly_dropped _ _ _ _ (by decide) hcancelled
  exact ⟨hcancelled, (hremoved "a" "x").2 ⟨hheld, _, List.mem_cons_self, rfl, rfl⟩⟩

/-- **A run that is called off can remove a key**: its only job drops the
key, and the run is called off while the job is worked on. The key is
reported as removed and forgotten, and the next run takes it for new. -/
theorem cancelled_run_removes :
    ((remembering "a" "x").run [⟨"a", "x", true⟩] (fun _ => none) false).report.complete = false ∧
      ((remembering "a" "x").run [⟨"a", "x", true⟩] (fun _ => none) false).report.outputs =
        [⟨"a", "x", .removed⟩] ∧
      (((remembering "a" "x").run [⟨"a", "x", true⟩] (fun _ => none) false).stage.run
        [⟨"a", "x", false⟩] some false).report.outputs = [⟨"a", "x", .new⟩] := by
  refine ⟨?_, ?_, ?_⟩ <;> decide +kernel

end TrackedStage

end BuilderForge

import BuilderForge.Proofs.Listing.Keys
import BuilderForge.Stage.Sweep

/-!
# Sweeps in closed form

A sweep threads the flag from job to job, but at its two ends the thread is
gone: a sweep that is not called off answers every job on its own
(`sweep_of_complete`), and one that begins with the flag up answers exactly
the jobs whose answers are known (`sweep_of_flag`). In between, all that the
flag decides is how many of the unknown jobs are `begun`.
-/

namespace BuilderForge

variable {κ ι ω : Type} {known : ι → Option ω} {compute : ι → ω} {flag : Bool}
variable {jobs : List (Job κ ι)}

/-- The answer to an input that nothing keeps from being given. -/
def answerTo (known : ι → Option ω) (compute : ι → ω) (input : ι) : Answer ω :=
  match known input with
  | some value => ⟨value, true⟩
  | none => ⟨compute input, false⟩

/-- What is known is recalled. -/
theorem answerTo_of_known {input : ι} {value : ω} (h : known input = some value) :
    answerTo known compute input = ⟨value, true⟩ := by
  rw [answerTo, h]

/-- What is not known is computed. -/
theorem answerTo_of_unknown {input : ι} (h : known input = none) :
    answerTo known compute input = ⟨compute input, false⟩ := by
  rw [answerTo, h]

/-- The flag after a first outcome is the flag over it, or goes up later. -/
theorem flagAfter_cons (outcome : Outcome κ ι ω) (rest : List (Outcome κ ι ω)) :
    flagAfter flag (outcome :: rest) = flagAfter (flag || outcome.raisesFlag) rest := by
  simp only [flagAfter, List.any_cons, Bool.or_assoc]

/-- A flag that is up stays up. -/
theorem flagAfter_true (outcomes : List (Outcome κ ι ω)) : flagAfter true outcomes = true :=
  Bool.true_or _

/-- Under the flag an unknown job is left out. -/
theorem sweep_cons_of_flag {job : Job κ ι} (h : known job.input = none) (rest : List (Job κ ι)) :
    sweep known compute true (job :: rest) = ⟨job, none⟩ :: sweep known compute true rest := by
  rw [sweep, h]
  rfl

/-- An unknown job that is begun is computed, and may raise the flag. -/
theorem sweep_cons_of_begun {job : Job κ ι} (h : known job.input = none)
    (rest : List (Job κ ι)) : sweep known compute false (job :: rest) =
      ⟨job, some ⟨compute job.input, false⟩⟩ :: sweep known compute job.cancels rest := by
  rw [sweep, h]
  rfl

/-- The jobs that a sweep works on where no answer is known: those up to the
first that calls the run off, and that one. -/
def begun (flag : Bool) : List (Job κ ι) → List (Job κ ι)
  | [] => []
  | job :: rest => if flag then [] else job :: begun job.cancels rest

/-- Under the flag nothing is begun. -/
@[simp]
theorem begun_true (jobs : List (Job κ ι)) : begun true jobs = [] := by
  cases jobs <;> rfl

/-- What is begun are jobs, in their order. -/
theorem begun_sublist (flag : Bool) (jobs : List (Job κ ι)) :
    (begun flag jobs).Sublist jobs := by
  induction jobs generalizing flag with
  | nil => exact .slnil
  | cons job rest ih =>
    cases flag with
    | true => exact List.nil_sublist _
    | false => exact (ih job.cancels).cons_cons job

/-- **A sweep that is not called off answers every job on its own.** -/
theorem sweep_of_complete (h : flagAfter flag (sweep known compute flag jobs) = false) :
    sweep known compute flag jobs =
      jobs.map fun job => ⟨job, some (answerTo known compute job.input)⟩ := by
  induction jobs generalizing flag with
  | nil => rfl
  | cons job rest ih =>
    rw [List.map_cons]
    cases hknown : known job.input with
    | some value =>
      rw [sweep_cons_of_known hknown] at h ⊢
      rw [flagAfter_cons, show Outcome.raisesFlag ⟨job, some ⟨value, true⟩⟩ = false from rfl,
        Bool.or_false] at h
      rw [ih h, answerTo_of_known hknown]
    | none =>
      -- the flag must be down here, or the sweep would end with the flag up
      cases flag with
      | true => rw [flagAfter_true] at h; cases h
      | false =>
        simp only [sweep, hknown, Bool.false_eq_true, if_false] at h ⊢
        rw [flagAfter_cons, show Outcome.raisesFlag ⟨job, some ⟨compute job.input, false⟩⟩ =
          job.cancels from rfl, Bool.false_or] at h
        rw [ih h, answerTo_of_unknown hknown]

/-- **A sweep under the flag gives what is known** and nothing else. -/
theorem sweep_of_flag : sweep known compute true jobs =
    jobs.map fun job => ⟨job, (known job.input).map (⟨·, true⟩)⟩ := by
  induction jobs with
  | nil => rfl
  | cons job rest ih =>
    rw [List.map_cons]
    cases hknown : known job.input with
    | some value => rw [sweep_cons_of_known hknown, ih, Option.map_some]
    | none => simp only [sweep, hknown, if_true, ih, Option.map_none]

/-- **When the flag is up**: it was, or a job that has to be computed calls
the run off. -/
theorem flagAfter_sweep : flagAfter flag (sweep known compute flag jobs) =
    (flag || jobs.any fun job => (known job.input).isNone && job.cancels) := by
  induction jobs generalizing flag with
  | nil => rfl
  | cons job rest ih =>
    rw [List.any_cons]
    cases hknown : known job.input with
    | some value =>
      rw [sweep_cons_of_known hknown, flagAfter_cons,
        show Outcome.raisesFlag ⟨job, some ⟨value, true⟩⟩ = false from rfl, Bool.or_false, ih]
      rfl
    | none =>
      -- under the flag nothing is computed, so nothing can raise it
      cases flag with
      | true => exact flagAfter_true _
      | false =>
        simp only [sweep, hknown, Bool.false_eq_true, if_false]
        rw [flagAfter_cons, show Outcome.raisesFlag ⟨job, some ⟨compute job.input, false⟩⟩ =
          job.cancels from rfl, Bool.false_or, ih]
        rfl

/-- What is made of the outcomes under the keys of their jobs shares no key
if the jobs do not. -/
theorem nodup_filterMap_sweep {β : Type} {f : Outcome κ ι ω → Option β} {name : β → κ}
    (hf : ∀ outcome b, f outcome = some b → name b = outcome.job.key)
    (h : (jobs.map Job.key).Nodup) :
    (((sweep known compute flag jobs).filterMap f).map name).Nodup := by
  refine List.Nodup.sublist (map_filterMap_sublist hf _) ?_
  rw [← map_job_sweep known compute flag jobs, List.map_map] at h
  exact h

end BuilderForge

/-!
# Sweeps

A stage works through its jobs in order. Each job has a key and an input,
and its answer is computed from the input, unless the answer is known
already. The host can call a run off at any time by raising a flag: jobs
that are not yet begun are then left out, while what is known is still
answered. The moment of the flag is part of the input here: it is up from
the start, or it goes up while the answer to a marked job is computed.

Who raises it makes no difference to a sweep. Working on a job may do so, and
then the job is marked where it is made; or the host does so from outside,
and then a `Signal` says when.
-/

namespace BuilderForge

/-- One piece of work for a stage. -/
structure Job (κ ι : Type) where
  key : κ
  input : ι
  /-- Whether the flag goes up while the answer is computed. -/
  cancels : Bool

/-- The answer to a job. -/
structure Answer (ω : Type) where
  value : ω
  /-- Whether the answer was known and not computed. -/
  recalled : Bool

/-- What became of a job: its answer, or none if it was left out. -/
structure Outcome (κ ι ω : Type) where
  job : Job κ ι
  answer : Option (Answer ω)

variable {κ ι ω : Type}

/-- When the host raises the flag over one stage. -/
inductive Signal (κ : Type)
  /-- Not while the stage is at work. -/
  | never
  /-- Before the first job. -/
  | before
  /-- While the answer to the job of `key` is computed. -/
  | during (key : κ)
  deriving DecidableEq

namespace Signal

/-- The flag with which a stage begins, given the flag at the end of the stage
before it. A flag that is up stays up. -/
def startingFlag (flag : Bool) : Signal κ → Bool
  | before => true
  | never | during _ => flag

/-- The jobs of a stage, marked where the flag goes up. -/
def mark [DecidableEq κ] (jobs : List (Job κ ι)) : Signal κ → List (Job κ ι)
  | during key => jobs.map fun job => { job with cancels := job.cancels || job.key = key }
  | never | before => jobs

end Signal

/-- Works through `jobs` in order, beginning with the flag up or down. -/
def sweep (known : ι → Option ω) (compute : ι → ω) (flag : Bool) :
    List (Job κ ι) → List (Outcome κ ι ω)
  | [] => []
  | job :: rest =>
    match known job.input with
    | some value => ⟨job, some ⟨value, true⟩⟩ :: sweep known compute flag rest
    | none =>
      if flag then ⟨job, none⟩ :: sweep known compute flag rest
      else ⟨job, some ⟨compute job.input, false⟩⟩ :: sweep known compute job.cancels rest

namespace Outcome

/-- Whether the answer to the job was computed. -/
def isComputed (outcome : Outcome κ ι ω) : Bool :=
  outcome.answer.any fun answer => !answer.recalled

/-- Whether the flag went up over the job. -/
def raisesFlag (outcome : Outcome κ ι ω) : Bool :=
  outcome.isComputed && outcome.job.cancels

/-- The inputs whose answers were computed, in order. -/
def computedInputs (outcomes : List (Outcome κ ι ω)) : List ι :=
  (outcomes.filter isComputed).map fun outcome => outcome.job.input

end Outcome

/-- The flag after a sweep that began with `flag`. -/
def flagAfter (flag : Bool) (outcomes : List (Outcome κ ι ω)) : Bool :=
  flag || outcomes.any Outcome.raisesFlag

/-- Every job has its outcome, in order. -/
@[simp]
theorem map_job_sweep (known : ι → Option ω) (compute : ι → ω) (flag : Bool)
    (jobs : List (Job κ ι)) : (sweep known compute flag jobs).map Outcome.job = jobs := by
  induction jobs generalizing flag with
  | nil => rfl
  | cons job rest ih =>
    rw [sweep]
    split
    · simp [ih]
    · split <;> simp [ih]

/-- A known answer is given whether or not the flag is up. -/
theorem sweep_cons_of_known {known : ι → Option ω} {compute : ι → ω} {flag : Bool}
    {job : Job κ ι} {rest : List (Job κ ι)} {value : ω} (h : known job.input = some value) :
    sweep known compute flag (job :: rest) =
      ⟨job, some ⟨value, true⟩⟩ :: sweep known compute flag rest := by
  rw [sweep, h]

/-- An answer is what is known or computed of the input of its job. -/
theorem answer_of_mem_sweep {known : ι → Option ω} {compute : ι → ω} {flag : Bool}
    {jobs : List (Job κ ι)} {outcome : Outcome κ ι ω} {answer : Answer ω}
    (h : outcome ∈ sweep known compute flag jobs) (hanswer : outcome.answer = some answer) :
    known outcome.job.input = some answer.value ∧ answer.recalled = true ∨
      known outcome.job.input = none ∧ answer = ⟨compute outcome.job.input, false⟩ := by
  induction jobs generalizing flag with
  | nil => cases h
  | cons job rest ih =>
    rw [sweep] at h
    split at h
    · next value hvalue =>
      rcases List.mem_cons.1 h with rfl | h
      · obtain rfl := Option.some.inj hanswer
        exact .inl ⟨hvalue, rfl⟩
      · exact ih h
    · next hnone =>
      split at h
      · rcases List.mem_cons.1 h with rfl | h
        · cases hanswer
        · exact ih h
      · rcases List.mem_cons.1 h with rfl | h
        · exact .inr ⟨hnone, (Option.some.inj hanswer).symm⟩
        · exact ih h

end BuilderForge

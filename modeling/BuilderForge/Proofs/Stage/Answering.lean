import BuilderForge.Proofs.Stage.Sweep

/-!
# Which jobs a sweep answers

A sweep that is called off leaves jobs out, but never one whose answer is
known: it answers the known ones and, of the others, those that it begins
before the flag goes up (`mem_answered`). Which these are depends on the jobs
and on what is known, and not on what is computed; so everything that a sweep
gives is one function of the jobs it answers, job by job (`filterMap_sweep`).
It does not matter here whether keys or inputs repeat.
-/

namespace BuilderForge

variable {κ ι ω β : Type} {known : ι → Option ω} {compute : ι → ω} {flag : Bool}
variable {jobs : List (Job κ ι)} {job : Job κ ι}

/-- The jobs whose answers are not known. -/
def pending (known : ι → Option ω) (jobs : List (Job κ ι)) : List (Job κ ι) :=
  jobs.filter fun job => (known job.input).isNone

/-- The jobs that a sweep answers: those with known answers, and the others
for as long as the flag is down. -/
def answered (known : ι → Option ω) (flag : Bool) : List (Job κ ι) → List (Job κ ι)
  | [] => []
  | job :: rest =>
    if (known job.input).isSome then job :: answered known flag rest
    else if flag then answered known flag rest
    else job :: answered known job.cancels rest

/-- A known job is answered, and leaves the flag as it is. -/
theorem answered_cons_of_known {value : ω} (h : known job.input = some value)
    (rest : List (Job κ ι)) :
    answered known flag (job :: rest) = job :: answered known flag rest := by
  rw [answered, h, Option.isSome_some, if_pos rfl]

/-- Under the flag an unknown job is left out. -/
theorem answered_cons_of_flag (h : known job.input = none) (rest : List (Job κ ι)) :
    answered known true (job :: rest) = answered known true rest := by
  rw [answered, h, Option.isSome_none, if_neg Bool.false_ne_true, if_pos rfl]

/-- An unknown job that is begun is answered, and may call the run off. -/
theorem answered_cons_of_begun (h : known job.input = none) (rest : List (Job κ ι)) :
    answered known false (job :: rest) = job :: answered known job.cancels rest := by
  rw [answered, h, Option.isSome_none, if_neg Bool.false_ne_true, if_neg Bool.false_ne_true]

theorem pending_cons_of_known {value : ω} (h : known job.input = some value)
    (rest : List (Job κ ι)) : pending known (job :: rest) = pending known rest := by
  rw [pending, List.filter_cons_of_neg (by simp [h])]
  rfl

theorem pending_cons_of_unknown (h : known job.input = none) (rest : List (Job κ ι)) :
    pending known (job :: rest) = job :: pending known rest := by
  rw [pending, List.filter_cons_of_pos (by simp [h])]
  rfl

/-- The flag goes up only over a job that is begun. -/
theorem begun_cons (rest : List (Job κ ι)) :
    begun false (job :: rest) = job :: begun job.cancels rest := rfl

/-- Where no answer is known, what is answered is what is begun. -/
theorem answered_none (flag : Bool) (jobs : List (Job κ ι)) :
    answered (fun _ => (none : Option ω)) flag jobs = begun flag jobs := by
  induction jobs generalizing flag with
  | nil => rfl
  | cons job rest ih =>
    cases flag with
    | true => rw [answered_cons_of_flag rfl, ih, begun_true, begun_true]
    | false => rw [answered_cons_of_begun rfl, ih, begun_cons]

/-- **Everything that a sweep gives is made of the jobs it answers**, each on
its own. -/
theorem filterMap_sweep (f : Job κ ι → Answer ω → β) :
    ((sweep known compute flag jobs).filterMap fun outcome =>
        outcome.answer.map (f outcome.job)) =
      (answered known flag jobs).map fun job => f job (answerTo known compute job.input) := by
  induction jobs generalizing flag with
  | nil => rfl
  | cons job rest ih =>
    cases hknown : known job.input with
    | some value =>
      rw [sweep_cons_of_known hknown, answered_cons_of_known hknown, List.map_cons,
        List.filterMap_cons, ih, answerTo_of_known hknown]
      rfl
    | none =>
      cases flag with
      | true =>
        rw [sweep_cons_of_flag hknown, answered_cons_of_flag hknown, ← ih]
        rfl
      | false =>
        rw [sweep_cons_of_begun hknown, answered_cons_of_begun hknown, List.map_cons, ← ih,
          answerTo_of_unknown hknown]
        rfl

/-- **What is computed**: the inputs of the unknown jobs that are begun, one
by one and in order. -/
theorem computedInputs_sweep : Outcome.computedInputs (sweep known compute flag jobs) =
    (begun flag (pending known jobs)).map Job.input := by
  induction jobs generalizing flag with
  | nil => rfl
  | cons job rest ih =>
    cases hknown : known job.input with
    | some value =>
      rw [sweep_cons_of_known hknown, pending_cons_of_known hknown, ← ih]
      rfl
    | none =>
      rw [pending_cons_of_unknown hknown]
      cases flag with
      | true =>
        rw [begun_true, ← begun_true (pending known rest), ← ih, sweep_cons_of_flag hknown]
        rfl
      | false =>
        rw [begun_cons, List.map_cons, ← ih, sweep_cons_of_begun hknown]
        rfl

/-- A job that is not begun comes after one that calls the run off. -/
theorem or_any_begun (flag : Bool) (jobs : List (Job κ ι)) :
    (flag || (begun flag jobs).any Job.cancels) = (flag || jobs.any Job.cancels) := by
  induction jobs generalizing flag with
  | nil => rfl
  | cons job rest ih =>
    cases flag with
    | true => rw [Bool.true_or, Bool.true_or]
    | false => rw [begun_cons, List.any_cons, List.any_cons, ih job.cancels]

/-- **When the flag is up**: it was, or a job that is begun calls the run
off. -/
theorem flagAfter_sweep_eq_begun : flagAfter flag (sweep known compute flag jobs) =
    (flag || (begun flag (pending known jobs)).any Job.cancels) := by
  rw [flagAfter_sweep, or_any_begun, pending, List.any_filter]

/-- **Which jobs are answered**: the known ones and those that are begun. -/
theorem mem_answered : job ∈ answered known flag jobs ↔
    job ∈ jobs ∧ (known job.input).isSome ∨ job ∈ begun flag (pending known jobs) := by
  induction jobs generalizing flag with
  | nil => simp [answered, pending, begun]
  | cons first rest ih =>
    cases hknown : known first.input with
    | some value =>
      rw [answered_cons_of_known hknown, pending_cons_of_known hknown, List.mem_cons, ih,
        List.mem_cons]
      constructor
      · rintro (rfl | ⟨hrest, hsome⟩ | hbegun)
        · exact .inl ⟨.inl rfl, by rw [hknown]; rfl⟩
        · exact .inl ⟨.inr hrest, hsome⟩
        · exact .inr hbegun
      · rintro (⟨rfl | hrest, hsome⟩ | hbegun)
        · exact .inl rfl
        · exact .inr (.inl ⟨hrest, hsome⟩)
        · exact .inr (.inr hbegun)
    | none =>
      -- the first job is not among the known ones
      have hfirst : job ∈ first :: rest ∧ (known job.input).isSome ↔
          job ∈ rest ∧ (known job.input).isSome := by
        rw [List.mem_cons]
        constructor
        · rintro ⟨rfl | hrest, hsome⟩
          · rw [hknown] at hsome
            cases hsome
          · exact ⟨hrest, hsome⟩
        · exact fun h => ⟨.inr h.1, h.2⟩
      rw [hfirst, pending_cons_of_unknown hknown]
      cases flag with
      | true =>
        rw [answered_cons_of_flag hknown, ih, begun_true, begun_true]
      | false =>
        rw [answered_cons_of_begun hknown, begun_cons, List.mem_cons, List.mem_cons, ih]
        exact or_left_comm

/-- What is answered are jobs, in their order. -/
theorem answered_sublist (known : ι → Option ω) (flag : Bool) (jobs : List (Job κ ι)) :
    (answered known flag jobs).Sublist jobs := by
  induction jobs generalizing flag with
  | nil => exact .slnil
  | cons job rest ih =>
    cases hknown : known job.input with
    | some value =>
      rw [answered_cons_of_known hknown]
      exact (ih flag).cons_cons job
    | none =>
      cases flag with
      | true =>
        rw [answered_cons_of_flag hknown]
        exact (ih true).cons job
      | false =>
        rw [answered_cons_of_begun hknown]
        exact (ih job.cancels).cons_cons job

/-- **No known job is left out**, in whatever place it stands. -/
theorem filter_known_answered :
    (answered known flag jobs).filter (fun job => (known job.input).isSome) =
      jobs.filter fun job => (known job.input).isSome := by
  induction jobs generalizing flag with
  | nil => rfl
  | cons job rest ih =>
    cases hknown : known job.input with
    | some value =>
      rw [answered_cons_of_known hknown, List.filter_cons_of_pos (by simp [hknown]),
        List.filter_cons_of_pos (by simp [hknown]), ih]
    | none =>
      rw [List.filter_cons_of_neg (l := rest) (by simp [hknown])]
      cases flag with
      | true => rw [answered_cons_of_flag hknown, ih]
      | false =>
        rw [answered_cons_of_begun hknown, List.filter_cons_of_neg (by simp [hknown]), ih]

/-- **A run to the end answers every job.** -/
theorem answered_of_complete (h : flagAfter flag (sweep known compute flag jobs) = false) :
    answered known flag jobs = jobs := by
  have hjobs : (sweep known compute flag jobs).filterMap (fun outcome =>
      outcome.answer.map fun _ => outcome.job) = jobs := by
    rw [sweep_of_complete h, List.filterMap_map]
    exact List.filterMap_some
  rw [filterMap_sweep fun job _ => job, List.map_id'] at hjobs
  exact hjobs

end BuilderForge

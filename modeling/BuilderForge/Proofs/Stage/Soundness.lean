import BuilderForge.Proofs.Stage.Bookkeeping

/-!
# A memo stage gives what would be computed

Where all runs compute the same function, it makes no difference to a value
whether it is recalled or computed. The memo is never wrong about an input
(`SoundFor.serve`), and an answer goes to the item that asked for it, also
where some items are recalled, others computed and others left out, and where
keys or inputs repeat (`SoundFor.answersBy`).
-/

namespace BuilderForge

open Std

variable {κ ι ω : Type} [Ord κ] [Ord ι] [TransOrd κ] [TransOrd ι]

namespace MemoStage

/-- The memo has nothing but values of `g`. -/
def SoundFor (stage : MemoStage κ ι ω) (g : ι → ω) : Prop :=
  ∀ input value, stage.memo[input]? = some value → value = g input

/-- **The call is answered by `g`**, item by item. -/
structure AnswersBy [DecidableEq ω] (stage : MemoStage κ ι ω) (g : ι → ω) (call : Call κ ι ω) :
    Prop where
  /-- What is answered are items of the call. -/
  items : (stage.answeredJobs call).Sublist call.jobs
  /-- All items with a memoized input are answered, whatever the flag. -/
  recalled : (stage.answeredJobs call).filter (fun job => stage.memo[job.input]?.isSome) =
    call.jobs.filter fun job => stage.memo[job.input]?.isSome
  /-- The live outputs are those of the answered items, one for each and in
  the order of the keys: each has the key of its item and the value of its
  input, and counts as recalled exactly if the input was memoized. -/
  live : List.Forall₂ (fun job output => output.key = job.key ∧ output.value = g job.input ∧
      (output.reason = .cached ↔ stage.memo[job.input]?.isSome))
    (ascendingBy Job.key (stage.answeredJobs call)) (stage.serve call).report.live

variable {stage : MemoStage κ ι ω} {g : ι → ω} {call : Call κ ι ω}

omit [TransOrd κ] in
/-- A stage that has not run yet has nothing that could be wrong. -/
theorem soundFor_empty (name : StageName) (g : ι → ω) :
    (empty name : MemoStage κ ι ω).SoundFor g := by
  intro input value h
  simp [empty] at h

omit [TransOrd κ] in
/-- **An answer is the value of the input**, recalled or computed. -/
theorem SoundFor.value_answerOf (h : stage.SoundFor g) (hpure : call.compute = g)
    (job : Job κ ι) : (stage.answerOf call job).value = g job.input := by
  cases hmemo : stage.memo[job.input]? with
  | none => rw [value_answerOf_of_unknown hmemo, hpure]
  | some value => rw [value_answerOf_of_known hmemo, h job.input value hmemo]

variable [DecidableEq ω]

/-- So the live outputs have the values of their items. -/
theorem SoundFor.answersBy (h : stage.SoundFor g) (hpure : call.compute = g) :
    stage.AnswersBy g call where
  items := stage.answeredJobs_sublist call
  recalled := filter_known_answered
  live := by
    refine forall₂_live_serve.imp fun job output houtput => ?_
    rw [h.value_answerOf hpure] at houtput
    exact houtput

/-- **No call makes the memo wrong**: what it adds are answers, and what it
keeps was right before. -/
theorem SoundFor.serve [LawfulEqOrd ι] (h : stage.SoundFor g) (hpure : call.compute = g) :
    (stage.serve call).stage.SoundFor g := by
  intro input value hvalue
  rcases getElem?_memo_serve.1 hvalue with ⟨job, -, rfl, rfl⟩ | ⟨-, hbefore⟩
  · exact h.value_answerOf hpure job
  · exact h input value hbefore

section Run

variable {jobs : List (Job κ ι)} {flag : Bool}

/-- In particular no run does, when it computes `g` and whatever calls it
off. -/
theorem SoundFor.run [LawfulEqOrd ι] (h : stage.SoundFor g) :
    (stage.run jobs g flag).stage.SoundFor g :=
  h.serve (show Call.compute ⟨jobs, g, flag⟩ = g from rfl)

variable [LawfulEqOrd κ]

/-- **What a run gives its keys** are the values of their inputs, as far as
it comes. -/
theorem SoundFor.livePairs_run (h : stage.SoundFor g) (hjobs : AscendsBy Job.key jobs) :
    (stage.run jobs g flag).report.livePairs =
      (answered (stage.memo[·]?) flag jobs).map fun job => (job.key, g job.input) := by
  have hpairs : (stage.serve ⟨jobs, g, flag⟩).report.livePairs = _ := livePairs_serve hjobs
  refine hpairs.trans (List.map_congr_left fun job _ => ?_)
  rw [h.value_answerOf rfl]

/-- So a run gives a part of what its jobs come to, in their order, -/
theorem SoundFor.livePairs_sublist (h : stage.SoundFor g) (hjobs : AscendsBy Job.key jobs) :
    (stage.run jobs g flag).report.livePairs.Sublist
      (jobs.map fun job => (job.key, g job.input)) := by
  rw [h.livePairs_run hjobs]
  exact (answered_sublist _ _ _).map _

/-- and the whole of it if it goes to its end. -/
theorem SoundFor.livePairs_of_complete (h : stage.SoundFor g) (hjobs : AscendsBy Job.key jobs)
    (hcomplete : (stage.run jobs g flag).report.complete = true) :
    (stage.run jobs g flag).report.livePairs = jobs.map fun job => (job.key, g job.input) := by
  rw [h.livePairs_run hjobs, answered_of_complete (flagAfter_of_complete hcomplete)]

end Run

/-- The memo is right after every history of calls. -/
theorem soundFor_after [LawfulEqOrd ι] (name : StageName) (history : List (Call κ ι ω))
    (hpure : ∀ call ∈ history, call.compute = g) :
    ((empty name : MemoStage κ ι ω).after history).SoundFor g := by
  refine after_induction _ history (motive := fun stage _ => stage.SoundFor g)
    (soundFor_empty name g) ?_ hpure
  intro stage _ call hsound hcall
  exact hsound.serve hcall

/-- What a call removes was last reported with the value that it has there. -/
theorem Reflects.lastReported_of_removed [LawfulEqOrd κ] [DecidableEq κ]
    {runs : List (Served κ ι ω)} (hreflects : stage.Reflects runs) (h : call.Distinct) {key : κ}
    {value : ω} (hremoved : ⟨key, value, .removed⟩ ∈ (stage.serve call).report.outputs) :
    ∃ output, lastReported runs key = some output ∧ output.isLive ∧ output.value = value := by
  obtain ⟨-, -, hprevious⟩ := (mem_removed_serve h).1 hremoved
  exact hreflects.latest key value hprevious

/-- **A memo stage is sound over every history** of calls that compute the
same function: whatever a run gives back for an item is the value of the
item's input, all items with memoized inputs are answered, also under the
flag, and, where no run has two items for one key, what is removed has the
value that an earlier run reported last for its key. -/
theorem memo_answers_sound [LawfulEqOrd κ] [LawfulEqOrd ι] [DecidableEq κ] (name : StageName)
    (g : ι → ω) (history : List (Call κ ι ω)) (call : Call κ ι ω)
    (hpure : ∀ each ∈ history ++ [call], each.compute = g) :
    ((empty name).after history).AnswersBy g call ∧
      ((∀ each ∈ history ++ [call], each.Distinct) → ∀ key value,
        ⟨key, value, .removed⟩ ∈ (((empty name).after history).serve call).report.outputs →
        ∃ output, lastReported ((empty name).served history) key = some output ∧
          output.isLive ∧ output.value = value) := by
  have hcall : call ∈ history ++ [call] :=
    List.mem_append_right _ (List.mem_singleton_self call)
  have hsound : ((empty name).after history).SoundFor g :=
    soundFor_after name history fun each heach => hpure each (List.mem_append_left _ heach)
  refine ⟨hsound.answersBy (hpure call hcall), fun hdistinct key value hremoved => ?_⟩
  have hreflects := reflects_after name history fun each heach =>
    hdistinct each (List.mem_append_left _ heach)
  exact hreflects.lastReported_of_removed (hdistinct call hcall) hremoved

/-- Two items that share an input, and a run that its first item calls off. -/
def sharing : List (Call String String String) :=
  [⟨[⟨"a", "x", false⟩, ⟨"b", "x", false⟩], (· ++ "!"), false⟩,
    ⟨[⟨"b", "y", true⟩, ⟨"a", "z", false⟩], (· ++ "!"), false⟩]

/-- The shared input under another key. -/
def returning : Call String String String :=
  ⟨[⟨"c", "x", false⟩, ⟨"b", "y", false⟩], (· ++ "!"), false⟩

/-- The shared input is recalled for another item, and one of the two items
that had it is removed with the value that it had. -/
theorem memo_answers_sound_of_sharing :
    (∀ each ∈ sharing ++ [returning], each.compute = (· ++ "!")) ∧
      (∀ each ∈ sharing ++ [returning], each.Distinct) ∧
      ((empty .emission).after sharing).AnswersBy (· ++ "!") returning ∧
      ⟨"a", "x!", .removed⟩ ∈
        (((empty .emission).after sharing).serve returning).report.outputs ∧
      ∃ output, lastReported ((empty .emission).served sharing) "a" = some output ∧
        output.isLive ∧ output.value = "x!" := by
  have hpure : ∀ each ∈ sharing ++ [returning], each.compute = (· ++ "!") := by
    simp [sharing, returning]
  have hdistinct : ∀ each ∈ sharing ++ [returning], each.Distinct := by decide
  obtain ⟨hanswers, hlast⟩ := memo_answers_sound .emission (· ++ "!") sharing returning hpure
  have hremoved : ⟨"a", "x!", .removed⟩ ∈
      (((empty .emission).after sharing).serve returning).report.outputs := by
    refine (mem_removed_serve (by decide)).2 ⟨?_, by decide, ?_⟩
    · rw [complete_serve]
      decide +kernel
    · decide +kernel
  exact ⟨hpure, hdistinct, hanswers, hremoved, hlast hdistinct "a" "x!" hremoved⟩

end MemoStage

end BuilderForge

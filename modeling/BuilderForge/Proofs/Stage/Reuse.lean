import BuilderForge.Proofs.Stage.Live
import BuilderForge.Proofs.Stage.Serving

/-!
# Reports in which everything is reused

After a run to the end a memo stage remembers what it reported, under the
keys and under the inputs (`getElem?_previous_iff`, `getElem?_memo_iff`). The
next run is compared with the two in different ways. An output is unchanged
if its key had the same value; it is recalled if its input was answered, and
under which key does not matter. So a report in which all is recalled or
unchanged says that no key is gone, and that no value is one that was not
there (`exists_of_reused`). That each key has the value that it had, and that
no key is new, it does not say: an input can move to another key
(`reused_after_exchange`). Where inputs stay with their keys, all is as it
was.
-/

namespace BuilderForge

open Std

variable {κ ι ω : Type}

/-- Inputs stay with their keys: what is an item's input, and was one in the
earlier call, was it there under the same key. -/
def Call.KeepsInputs (call earlier : Call κ ι ω) : Prop :=
  ∀ job ∈ call.jobs, ∀ other ∈ earlier.jobs, other.input = job.input →
    ∃ same ∈ earlier.jobs, same.key = job.key ∧ same.input = job.input

/-- What is computed can be reused only as what its key had. -/
theorem eq_some_of_reasonAgainst_isReused [DecidableEq ω] {old : Option ω} {value : ω}
    (h : (reasonAgainst old value).isReused = true) : old = some value := by
  unfold reasonAgainst at h
  split at h
  · cases h
  · next had =>
    split at h
    · next heq => rw [heq]
    · cases h

namespace MemoStage

variable [Ord κ] [Ord ι] [TransOrd κ] [TransOrd ι] [DecidableEq ω] [LawfulEqOrd κ]
variable {stage : MemoStage κ ι ω} {call : Call κ ι ω}

/-! ## After a run to the end -/

/-- The live pairs of a run to the end are its items' keys and answers. -/
theorem mem_livePairs_serve (h : call.Distinct)
    (hcomplete : (stage.serve call).report.complete = true) {key : κ} {value : ω} :
    (key, value) ∈ (stage.serve call).report.livePairs ↔
      ∃ job ∈ call.jobs, job.key = key ∧ (stage.answerOf call job).value = value := by
  simp only [StageReport.livePairs, List.mem_map, Prod.mk.injEq]
  constructor
  · rintro ⟨output, houtput, rfl, rfl⟩
    obtain ⟨job, hjob, rfl⟩ := (mem_live_serve h).1 houtput
    exact ⟨job, (stage.answeredJobs_sublist call).subset hjob, rfl, rfl⟩
  · rintro ⟨job, hjob, rfl, rfl⟩
    rw [← answeredJobs_of_complete hcomplete] at hjob
    exact ⟨_, (mem_live_serve h).2 ⟨job, hjob, rfl⟩, rfl, rfl⟩

/-- **What is remembered of keys** are then the live pairs, -/
theorem getElem?_previous_iff (h : call.Distinct)
    (hcomplete : (stage.serve call).report.complete = true) {key : κ} {value : ω} :
    (stage.serve call).stage.previous[key]? = some value ↔
      (key, value) ∈ (stage.serve call).report.livePairs := by
  rw [getElem?_previous_serve h, mem_livePairs_serve h hcomplete,
    answeredJobs_of_complete hcomplete, hcomplete]
  simp

/-- **and what is remembered of inputs** are the values that the live pairs
have for their items. -/
theorem getElem?_memo_iff [LawfulEqOrd ι] (h : call.Distinct)
    (hcomplete : (stage.serve call).report.complete = true) {input : ι} {value : ω} :
    (stage.serve call).stage.memo[input]? = some value ↔
      ∃ job ∈ call.jobs, job.input = input ∧
        (job.key, value) ∈ (stage.serve call).report.livePairs := by
  rw [getElem?_memo_serve, answeredJobs_of_complete hcomplete, hcomplete]
  simp only [Bool.true_eq_false, false_and, or_false, mem_livePairs_serve h hcomplete]
  constructor
  · rintro ⟨job, hjob, hinput, hvalue⟩
    exact ⟨job, hjob, hinput, job, hjob, rfl, hvalue⟩
  · rintro ⟨job, hjob, hinput, other, hother, hkey, hvalue⟩
    obtain rfl : other = job := List.inj_on_of_nodup_map h hother hjob hkey
    exact ⟨other, hother, hinput, hvalue⟩

/-- Items with the same input have the same value. -/
theorem mem_livePairs_of_input (h : call.Distinct)
    (hcomplete : (stage.serve call).report.complete = true) {job other : Job κ ι} {value : ω}
    (hjob : job ∈ call.jobs) (hother : other ∈ call.jobs) (hinput : other.input = job.input)
    (hpair : (other.key, value) ∈ (stage.serve call).report.livePairs) :
    (job.key, value) ∈ (stage.serve call).report.livePairs := by
  obtain ⟨found, hfound, hkey, rfl⟩ := (mem_livePairs_serve h hcomplete).1 hpair
  obtain rfl : found = other := List.inj_on_of_nodup_map h hfound hother hkey
  exact (mem_livePairs_serve h hcomplete).2 ⟨job, hjob, rfl, by rw [answerOf, answerOf, hinput]⟩

/-! ## The run that comes next -/

variable {next : Call κ ι ω}

/-- No key is gone from a report in which all is reused. -/
theorem exists_key_of_reused (h : call.Distinct) (hnext : next.Distinct)
    (hcomplete : (stage.serve call).report.complete = true)
    (hends : ((stage.serve call).stage.serve next).report.complete = true)
    (hreused : ((stage.serve call).stage.serve next).report.isFullyReused = true)
    {key : κ} {value : ω} (hpair : (key, value) ∈ (stage.serve call).report.livePairs) :
    ∃ now, (key, now) ∈ ((stage.serve call).stage.serve next).report.livePairs := by
  by_cases hkey : key ∈ next.jobs.map Job.key
  · obtain ⟨job, hjob, rfl⟩ := List.mem_map.1 hkey
    exact ⟨_, (mem_livePairs_serve hnext hends).2 ⟨job, hjob, rfl, rfl⟩⟩
  · -- a key without an item would be reported as removed
    have hremoved := (mem_removed_serve hnext).2
      ⟨hends, hkey, (getElem?_previous_iff h hcomplete).2 hpair⟩
    have hreason := List.all_eq_true.1 hreused _ hremoved
    cases hreason

/-- **What is reused was there**: either the key had the value, or it is
recalled, and then the run before gave the value to an item with the same
input. -/
theorem exists_of_reused [LawfulEqOrd ι] (h : call.Distinct) (hnext : next.Distinct)
    (hcomplete : (stage.serve call).report.complete = true)
    (hreused : ((stage.serve call).stage.serve next).report.isFullyReused = true)
    {output : StageOutput κ ω}
    (houtput : output ∈ ((stage.serve call).stage.serve next).report.live) :
    (output.key, output.value) ∈ (stage.serve call).report.livePairs ∨
      output.reason = .cached ∧ ∃ job ∈ next.jobs, job.key = output.key ∧
        ∃ other ∈ call.jobs, other.input = job.input ∧
          (other.key, output.value) ∈ (stage.serve call).report.livePairs := by
  have hreason := List.all_eq_true.1 hreused output (List.mem_filter.1 houtput).1
  obtain ⟨job, hjob, rfl⟩ := (mem_live_serve hnext).1 houtput
  cases hmemo : (stage.serve call).stage.memo[job.input]? with
  | some value =>
    refine .inr ⟨?_, job, (answeredJobs_sublist _ next).subset hjob, rfl, ?_⟩
    · simp [recalled_answerOf, hmemo]
    · rw [value_answerOf_of_known hmemo]
      exact (getElem?_memo_iff h hcomplete).1 hmemo
  | none =>
    have hrecalled : ((stage.serve call).stage.answerOf next job).recalled = false := by
      rw [recalled_answerOf, hmemo]
      rfl
    simp only [hrecalled, Bool.false_eq_true, if_false] at hreason
    exact .inl ((getElem?_previous_iff h hcomplete).1 (eq_some_of_reasonAgainst_isReused hreason))

/-- **All is as it was if no recalled value is new to its key.** -/
theorem livePairs_eq_of_recalled [LawfulEqOrd ι] (h : call.Distinct) (hnext : next.Distinct)
    (hcomplete : (stage.serve call).report.complete = true)
    (hends : ((stage.serve call).stage.serve next).report.complete = true)
    (hreused : ((stage.serve call).stage.serve next).report.isFullyReused = true)
    (hrecalled : ∀ output ∈ ((stage.serve call).stage.serve next).report.live,
      output.reason = .cached →
        (output.key, output.value) ∈ (stage.serve call).report.livePairs) :
    ((stage.serve call).stage.serve next).report.livePairs =
      (stage.serve call).report.livePairs := by
  have hascends : ∀ {stage : MemoStage κ ι ω} {call : Call κ ι ω}, call.Distinct →
      AscendsBy Prod.fst (stage.serve call).report.livePairs := fun h =>
    ascendsBy_map.2 ((ascendsBy_outputs_serve h).sublist List.filter_sublist)
  have hkept : ∀ pair ∈ ((stage.serve call).stage.serve next).report.livePairs,
      pair ∈ (stage.serve call).report.livePairs := by
    intro pair hpair
    obtain ⟨output, houtput, rfl⟩ := List.mem_map.1 hpair
    rcases exists_of_reused h hnext hcomplete hreused houtput with hhad | ⟨hcached, -⟩
    · exact hhad
    · exact hrecalled output houtput hcached
  refine (hascends hnext).eq_of_mem_iff (hascends h) fun pair => ⟨hkept pair, fun hpair => ?_⟩
  -- the key still has a value, and that value is one that it had
  obtain ⟨now, hnow⟩ := exists_key_of_reused h hnext hcomplete hends hreused hpair
  have hsame : (pair.1, now) = pair :=
    List.inj_on_of_nodup_map (hascends h).nodup_keys (hkept _ hnow) hpair rfl
  rwa [hsame] at hnow

/-- **A report in which all is reused, after a run to the end.** No key is
gone; each live output has a value that its key had, or is recalled with the
value that the run before gave to an item with the same input; the live
outputs are those of the run before, key for key and value for value, exactly
if each recalled value is one that its key had; and so they are where inputs
stay with their keys. What the stage remembered before the two runs, and what
they compute, makes no difference. -/
theorem reused_report_keeps [LawfulEqOrd ι] (stage : MemoStage κ ι ω) (call next : Call κ ι ω)
    (h : call.Distinct) (hnext : next.Distinct)
    (hcomplete : (stage.serve call).report.complete = true)
    (hends : ((stage.serve call).stage.serve next).report.complete = true)
    (hreused : ((stage.serve call).stage.serve next).report.isFullyReused = true) :
    (∀ pair ∈ (stage.serve call).report.livePairs,
      ∃ now, (pair.1, now) ∈ ((stage.serve call).stage.serve next).report.livePairs) ∧
    (∀ output ∈ ((stage.serve call).stage.serve next).report.live,
      (output.key, output.value) ∈ (stage.serve call).report.livePairs ∨
        output.reason = .cached ∧ ∃ job ∈ next.jobs, job.key = output.key ∧
          ∃ other ∈ call.jobs, other.input = job.input ∧
            (other.key, output.value) ∈ (stage.serve call).report.livePairs) ∧
    (((stage.serve call).stage.serve next).report.livePairs =
        (stage.serve call).report.livePairs ↔
      ∀ output ∈ ((stage.serve call).stage.serve next).report.live, output.reason = .cached →
        (output.key, output.value) ∈ (stage.serve call).report.livePairs) ∧
    (next.KeepsInputs call → ((stage.serve call).stage.serve next).report.livePairs =
      (stage.serve call).report.livePairs) := by
  have hsame := livePairs_eq_of_recalled h hnext hcomplete hends hreused
  refine ⟨fun pair hpair => exists_key_of_reused h hnext hcomplete hends hreused hpair,
    fun output houtput => exists_of_reused h hnext hcomplete hreused houtput,
    ⟨fun heq output houtput _ => ?_, hsame⟩, fun hkeeps => hsame fun output houtput hcached => ?_⟩
  · rw [← heq]
    exact List.mem_map_of_mem houtput
  · -- the input that is recalled was there under the same key
    rcases exists_of_reused h hnext hcomplete hreused houtput with
      hhad | ⟨-, job, hjob, hkey, other, hother, hinput, hpair⟩
    · exact hhad
    · obtain ⟨same, hmem, hsamekey, hsameinput⟩ := hkeeps job hjob other hother hinput
      rw [← hkey, ← hsamekey]
      exact mem_livePairs_of_input h hcomplete hmem hother (hinput.trans hsameinput.symm) hpair

omit [LawfulEqOrd κ] in
/-- Whether all is reused can be told before the outputs are sorted. -/
theorem isFullyReused_serve : (stage.serve call).report.isFullyReused =
    (Finished.outputs stage.previous (stage.finishedBy call) ++
      if (stage.serve call).report.complete then
        removedOutputs (Finished.leftover stage.previous (stage.finishedBy call))
      else []).all fun output => output.reason.isReused := by
  rw [StageReport.isFullyReused, outputs_serve]
  exact (ascendingBy_perm _ _).all_eq

/-- Two items, which are computed to their last digits. -/
def digits : Call String Nat Nat :=
  ⟨[⟨"a", 1, false⟩, ⟨"b", 2, false⟩], (· % 10), false⟩

/-- One of them with another input that ends in the same digit. -/
def digitsAgain : Call String Nat Nat :=
  ⟨[⟨"a", 1, false⟩, ⟨"b", 12, false⟩], (· % 10), false⟩

/-- One item is recalled and the other computed anew; the inputs stay with
their keys, so nothing changes. -/
theorem reused_report_keeps_of_digits :
    digits.Distinct ∧ digitsAgain.Distinct ∧
      (((empty .emission).serve digits).report.complete = true) ∧
      ((((empty .emission).serve digits).stage.serve digitsAgain).report.complete = true) ∧
      ((((empty .emission).serve digits).stage.serve digitsAgain).report.isFullyReused = true) ∧
      digitsAgain.KeepsInputs digits ∧
      (((empty .emission).serve digits).stage.serve digitsAgain).report.livePairs =
        ((empty .emission).serve digits).report.livePairs := by
  have hfirst : digits.Distinct := by decide
  have hagain : digitsAgain.Distinct := by decide
  have hcomplete : ((empty .emission).serve digits).report.complete = true := by decide +kernel
  have hends : (((empty .emission).serve digits).stage.serve digitsAgain).report.complete =
      true := by
    decide +kernel
  have hreused : (((empty .emission).serve digits).stage.serve digitsAgain).report.isFullyReused =
      true := by
    rw [isFullyReused_serve]
    decide +kernel
  have hkeeps : digitsAgain.KeepsInputs digits := by
    simp [Call.KeepsInputs, digits, digitsAgain]
  obtain ⟨-, -, -, hsame⟩ :=
    reused_report_keeps _ digits digitsAgain hfirst hagain hcomplete hends hreused
  exact ⟨hfirst, hagain, hcomplete, hends, hreused, hkeeps, hsame hkeeps⟩

/-- Two items that are their own values. -/
def plain : Call String String String :=
  ⟨[⟨"a", "x", false⟩, ⟨"b", "y", false⟩], id, false⟩

/-- The same items with each other's inputs. -/
def exchanged : Call String String String :=
  ⟨[⟨"a", "y", false⟩, ⟨"b", "x", false⟩], id, false⟩

/-- The same items, and another one with the input of the first. -/
def joined : Call String String String :=
  ⟨[⟨"a", "x", false⟩, ⟨"b", "y", false⟩, ⟨"c", "x", false⟩], id, false⟩

/-- **All can be reused and yet not be as it was.** Where two items exchange
their inputs, both are recalled, and their values are exchanged; and where an
item is new and has an input that another one had, it is recalled as well. -/
theorem reused_after_exchange :
    plain.Distinct ∧ exchanged.Distinct ∧ joined.Distinct ∧
      ((empty .emission).serve plain).report.complete = true ∧
      ((empty .emission).serve plain).report.livePairs = [("a", "x"), ("b", "y")] ∧
      (((empty .emission).serve plain).stage.serve exchanged).report.complete = true ∧
      (((empty .emission).serve plain).stage.serve exchanged).report.isFullyReused = true ∧
      (((empty .emission).serve plain).stage.serve exchanged).report.livePairs =
        [("a", "y"), ("b", "x")] ∧
      (((empty .emission).serve plain).stage.serve joined).report.complete = true ∧
      (((empty .emission).serve plain).stage.serve joined).report.isFullyReused = true ∧
      (((empty .emission).serve plain).stage.serve joined).report.livePairs =
        [("a", "x"), ("b", "y"), ("c", "x")] := by
  refine ⟨by decide, by decide, by decide, by decide +kernel, ?_, by decide +kernel, ?_, ?_,
    by decide +kernel, ?_, ?_⟩
  -- what is sorted does not reduce, so pairs and reasons are read off ahead of it
  · rw [livePairs_serve (by decide)]
    decide +kernel
  · rw [isFullyReused_serve]
    decide +kernel
  · rw [livePairs_serve (by decide)]
    decide +kernel
  · rw [isFullyReused_serve]
    decide +kernel
  · rw [livePairs_serve (by decide)]
    decide +kernel

end MemoStage

end BuilderForge

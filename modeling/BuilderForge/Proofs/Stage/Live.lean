import BuilderForge.Proofs.Listing.Keys
import BuilderForge.Stage.Report

/-!
# The live outputs of a report

What later stages read of a report is its live outputs, and of those the
keys and the values: the reasons are for the host. So two reports with the
same live pairs lead to the same work and to the same answers
(`StageReport.filterMap_live_congr`).
-/

namespace BuilderForge

variable {κ ω γ : Type}

namespace StageReport

/-- The keys and values of the outputs that exist in the run. -/
def livePairs (report : StageReport κ ω) : List (κ × ω) :=
  report.live.map fun output => (output.key, output.value)

/-- The keys of live outputs are those of the live pairs. -/
theorem map_key_live (report : StageReport κ ω) :
    report.live.map StageOutput.key = report.livePairs.map Prod.fst := by
  rw [livePairs, List.map_map]
  rfl

/-- And so are their values. -/
theorem map_value_live (report : StageReport κ ω) :
    report.live.map StageOutput.value = report.livePairs.map Prod.snd := by
  rw [livePairs, List.map_map]
  rfl

/-- What is read off live outputs without looking at the reasons is read off
the live pairs. -/
theorem filterMap_live (report : StageReport κ ω) {f : StageOutput κ ω → Option γ}
    (hf : ∀ output reason, f { output with reason } = f output) :
    report.live.filterMap f = report.livePairs.filterMap fun pair => f ⟨pair.1, pair.2, .new⟩ := by
  rw [livePairs, List.filterMap_map]
  exact List.filterMap_congr fun output _ => (hf output .new).symm

/-- **Reasons are for the host**: what is read off live outputs without
looking at the reasons is the same wherever the live pairs are. -/
theorem filterMap_live_congr {report other : StageReport κ ω}
    (h : report.livePairs = other.livePairs) {f : StageOutput κ ω → Option γ}
    (hf : ∀ output reason, f { output with reason } = f output) :
    report.live.filterMap f = other.live.filterMap f := by
  rw [filterMap_live report hf, filterMap_live other hf, h]

variable [DecidableEq κ]

/-- The value of the live output for `key`, if there is one. -/
def value? (report : StageReport κ ω) (key : κ) : Option ω :=
  (report.live.find? fun output => output.key = key).map StageOutput.value

/-- Where no key has two outputs, a look-up finds what is there. -/
theorem value?_eq_some_iff {report : StageReport κ ω}
    (h : (report.live.map StageOutput.key).Nodup) {key : κ} {value : ω} :
    report.value? key = some value ↔ (key, value) ∈ report.livePairs := by
  simp only [value?, livePairs, Option.map_eq_some_iff, find?_key_eq_some_iff h, List.mem_map,
    Prod.mk.injEq, and_assoc]

end StageReport

end BuilderForge

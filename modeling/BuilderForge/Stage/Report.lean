/-!
# Stage reports

A stage reports each run: every output with the reason why it has its
value, in the order of the keys, and how many answers were recalled and how
many computed. The reasons compare the run with what the stage remembers of
earlier ones.
-/

namespace BuilderForge

/-- The stages of the pipeline. -/
inductive StageName
  | initialExtraction
  | mergingFragments
  | emission
  deriving DecidableEq

/-- The name under which a stage reports. -/
def StageName.text : StageName → String
  | initialExtraction => "InitialExtraction"
  | mergingFragments => "MergingFragments"
  | emission => "Emission"

/-- Why an output has its value. -/
inductive StepReason
  /-- The answer was known: an equal input was answered before. -/
  | cached
  /-- Computed anew, and equal to what the key had. -/
  | unchanged
  /-- Computed anew, and different from what the key had. -/
  | modified
  /-- The key had nothing. -/
  | new
  /-- The key had a value and has none any more. -/
  | removed
  deriving DecidableEq

namespace StepReason

/-- All reasons. -/
def all : List StepReason :=
  [cached, unchanged, modified, new, removed]

/-- The reason in one word. -/
def text : StepReason → String
  | cached => "Cached"
  | unchanged => "Unchanged"
  | modified => "Modified"
  | new => "New"
  | removed => "Removed"

/-- Whether the output leaves further work as it was. -/
def isReused : StepReason → Bool
  | cached | unchanged => true
  | modified | new | removed => false

theorem mem_all (reason : StepReason) : reason ∈ all := by
  cases reason <;> simp [all]

end StepReason

/-- One output of a stage. -/
structure StageOutput (κ ω : Type) where
  key : κ
  /-- The value, or the last value if the output is removed. -/
  value : ω
  reason : StepReason
  deriving DecidableEq

/-- Everything a stage produced in one run. -/
structure StageReport (κ ω : Type) where
  stage : StageName
  /-- The outputs, ascending by key. -/
  outputs : List (StageOutput κ ω)
  /-- The number of answers that were recalled. -/
  hits : Nat
  /-- The number of answers that were computed. -/
  misses : Nat
  /-- Whether the run was not called off. -/
  complete : Bool
  deriving DecidableEq

variable {κ ω : Type}

/-- Whether the output exists in the run. -/
def StageOutput.isLive (output : StageOutput κ ω) : Bool :=
  output.reason ≠ .removed

namespace StageReport

/-- The reason of the output for `key`, if there is one. -/
def reasonFor? [DecidableEq κ] (report : StageReport κ ω) (key : κ) : Option StepReason :=
  (report.outputs.find? fun output => output.key = key).map StageOutput.reason

/-- The number of outputs with the given reason. -/
def count (report : StageReport κ ω) (reason : StepReason) : Nat :=
  report.outputs.countP fun output => output.reason = reason

/-- Whether all outputs leave further work as it was. -/
def isFullyReused (report : StageReport κ ω) : Bool :=
  report.outputs.all fun output => output.reason.isReused

/-- The outputs that exist in the run. -/
def live (report : StageReport κ ω) : List (StageOutput κ ω) :=
  report.outputs.filter StageOutput.isLive

end StageReport

end BuilderForge

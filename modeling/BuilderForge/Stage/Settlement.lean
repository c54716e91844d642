import BuilderForge.Listing.Ascending
import BuilderForge.Stage.Report
import Std.Data.ExtTreeMap

/-!
# Settling a run

When a sweep is over, its results are settled against the values that the
stage remembers, one after the other. The remembered value of a key is used
up by the first result for it. What is left at the end belongs to keys
without a result: a run that was not called off reports it as removed, and
one that was called off keeps it.

A result without a value drops its key; the drop is reported at once if the
key had a value.
-/

namespace BuilderForge

open Std

/-- A finite map, in the order of its keys. -/
abbrev Table (κ ω : Type) [Ord κ] := ExtTreeMap κ ω compare

/-- The result of one job that was not left out. -/
structure Finished (κ ω : Type) where
  key : κ
  /-- The value, none if the job drops its key. -/
  value : Option ω
  /-- Whether the answer was known and not computed. -/
  recalled : Bool

variable {κ ω : Type} [Ord κ] [TransOrd κ] [DecidableEq ω]

/-- The reason for a computed value, given what the key had. -/
def reasonAgainst (old : Option ω) (value : ω) : StepReason :=
  match old with
  | none => .new
  | some old => if old = value then .unchanged else .modified

namespace Finished

/-- The output of a result, given what the key had. -/
def output? (old : Option ω) (finished : Finished κ ω) : Option (StageOutput κ ω) :=
  match finished.value with
  | some value =>
    some ⟨finished.key, value, if finished.recalled then .cached else reasonAgainst old value⟩
  | none => old.map fun value => ⟨finished.key, value, .removed⟩

/-- The outputs of results, in order; each uses up what its key had. -/
def outputs (previous : Table κ ω) : List (Finished κ ω) → List (StageOutput κ ω)
  | [] => []
  | finished :: rest =>
    (finished.output? previous[finished.key]?).toList ++ outputs (previous.erase finished.key) rest

/-- What is left of the remembered values when all results are settled. -/
def leftover (previous : Table κ ω) : List (Finished κ ω) → Table κ ω
  | [] => previous
  | finished :: rest => leftover (previous.erase finished.key) rest

/-- The table after a result. -/
def addTo (table : Table κ ω) (finished : Finished κ ω) : Table κ ω :=
  match finished.value with
  | some value => table.insert finished.key value
  | none => table

/-- The values of the results by key; of several for a key the last counts. -/
def values (results : List (Finished κ ω)) : Table κ ω :=
  results.foldl addTo ∅

end Finished

/-- The values of a table as removed outputs. -/
def removedOutputs (table : Table κ ω) : List (StageOutput κ ω) :=
  table.toList.map fun (key, value) => ⟨key, value, .removed⟩

/-- All outputs of a run, ascending by key. -/
def settledOutputs (previous : Table κ ω) (results : List (Finished κ ω)) (complete : Bool) :
    List (StageOutput κ ω) :=
  ascendingBy StageOutput.key <|
    Finished.outputs previous results ++
      if complete then removedOutputs (Finished.leftover previous results) else []

/-- What is remembered after a run. -/
def settledTable (previous : Table κ ω) (results : List (Finished κ ω)) (complete : Bool) :
    Table κ ω :=
  if complete then Finished.values results
  else Finished.leftover previous results ∪ Finished.values results

end BuilderForge

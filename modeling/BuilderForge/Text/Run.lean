/-!
# Letter case — runs of code points

Letters of one case come in stretches: consecutive code points in most
alphabets, every second one where capitals and small letters alternate. A
`Run` is such a stretch, and the tables of letters are lists of runs.
-/

namespace BuilderForge

namespace Text

/-- The code points `first`, `first + stride`, …, `last`. -/
structure Run where
  /-- The least member. -/
  first : Nat
  /-- The greatest member. -/
  last : Nat
  /-- The distance between neighbours. -/
  stride : Nat

/-- Membership of a code point in a run. -/
def Run.contains (run : Run) (code : Nat) : Bool :=
  run.first ≤ code && code ≤ run.last && (code - run.first) % run.stride == 0

end Text

end BuilderForge

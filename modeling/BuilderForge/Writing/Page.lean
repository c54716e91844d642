import BuilderForge.Writing.Fragment

/-!
# Indented writing

A page is written line by line, each line at the current depth. The
elementary strokes write a line, leave a blank line, or move the depth by
one level; a step is a stroke or a block, which writes its opening line,
runs its body one level deeper and writes its closing line. Leaving a level
at depth zero is a fault. A body may itself move the depth, so a block can
close at another depth than it opened, or fail to.

`Step.run` follows the nesting. `Step.strokes` spells every block out as its
strokes, and running those is the same (`runAll_eq_strokes`).
-/

namespace BuilderForge

/-- What has been written, and the depth of the next line. -/
structure Page where
  /-- The current depth. -/
  depth : Nat
  /-- The text so far. -/
  text : String
  deriving DecidableEq

/-- An attempt to leave a level at depth zero. -/
inductive WriterFault
  | dedentAtZero
  deriving DecidableEq

/-- The fault in words. -/
def WriterFault.message : WriterFault → String
  | dedentAtZero => "dedent called with zero indent"

namespace Page

/-- The page before anything is written. -/
def empty : Page := ⟨0, ""⟩

/-- Writes a line at the current depth. -/
def line (page : Page) (content : String) : Page :=
  { page with text := page.text ++ indentation page.depth ++ content ++ "\n" }

/-- Leaves a blank line, without any spaces. -/
def blank (page : Page) : Page :=
  { page with text := page.text ++ "\n" }

/-- Goes one level deeper. -/
def indent (page : Page) : Page :=
  { page with depth := page.depth + 1 }

/-- Leaves one level. -/
def dedent (page : Page) : Except WriterFault Page :=
  match page.depth with
  | 0 => .error .dedentAtZero
  | depth + 1 => .ok { page with depth }

end Page

/-- What a writer does at once. -/
inductive Stroke
  | line (content : String)
  | blank
  | indent
  | dedent
  deriving DecidableEq

/-- The effect of a stroke on a page. -/
def Stroke.run (page : Page) : Stroke → Except WriterFault Page
  | line content => .ok (page.line content)
  | blank => .ok page.blank
  | indent => .ok page.indent
  | dedent => page.dedent

/-- The effect of strokes, one after the other. -/
def Stroke.runAll (page : Page) : List Stroke → Except WriterFault Page
  | [] => .ok page
  | stroke :: rest => do
    let page ← stroke.run page
    runAll page rest

/-- A stroke, or a block around further steps. -/
inductive Step
  | stroke (stroke : Stroke)
  | block (opening closing : String) (body : List Step)

namespace Step

mutual

/-- The effect of a step on a page. -/
def run (page : Page) : Step → Except WriterFault Page
  | stroke s => s.run page
  | block opening closing body => do
    let page ← runAll (page.line opening).indent body
    let page ← page.dedent
    return page.line closing

/-- The effect of steps, one after the other. -/
def runAll (page : Page) : List Step → Except WriterFault Page
  | [] => .ok page
  | step :: rest => do
    let page ← run page step
    runAll page rest

end

mutual

/-- A step spelled out: a block is its opening line, an indent, its body, a
dedent and its closing line. -/
def strokes : Step → List Stroke
  | stroke s => [s]
  | block opening closing body =>
    .line opening :: .indent :: (strokesAll body ++ [.dedent, .line closing])

/-- Steps spelled out. -/
def strokesAll : List Step → List Stroke
  | [] => []
  | step :: rest => step.strokes ++ strokesAll rest

end

mutual

/-- The depth after a step that is begun at `depth`, behind the depths
inside it: the one at the start of a block's body, then one after each step
of the body. -/
def depths (depth : Nat) : Step → List Nat × Nat
  | stroke .indent => ([], depth + 1)
  | stroke .dedent => ([], depth - 1)
  | stroke _ => ([], depth)
  | block _ _ body =>
    let (inside, last) := depthsAll (depth + 1) body
    ((depth + 1) :: inside, last - 1)

/-- The depths seen while steps are run one after the other, and the last
one. -/
def depthsAll (depth : Nat) : List Step → List Nat × Nat
  | [] => ([], depth)
  | step :: rest =>
    let (inside, next) := depths depth step
    let (following, last) := depthsAll next rest
    (inside ++ next :: following, last)

end

end Step

/-- Running strokes in two parts. -/
theorem Stroke.runAll_append (page : Page) (first second : List Stroke) :
    runAll page (first ++ second) =
      match runAll page first with
      | .ok page => runAll page second
      | .error fault => .error fault := by
  induction first generalizing page with
  | nil => rfl
  | cons stroke rest ih =>
    simp only [List.cons_append, runAll]
    cases stroke.run page with
    | error => rfl
    | ok page => exact ih page

namespace Step

mutual

/-- A step does what its strokes do. -/
theorem run_eq_strokes (page : Page) : (step : Step) →
    step.run page = Stroke.runAll page step.strokes
  | stroke s => by
    simp only [run, strokes, Stroke.runAll]
    cases s.run page <;> rfl
  | block opening closing body => by
    have hbody := runAll_eq_strokes (page.line opening).indent body
    rw [run, hbody, strokes]
    change _ = Stroke.runAll (page.line opening).indent _
    rw [Stroke.runAll_append]
    cases Stroke.runAll (page.line opening).indent (strokesAll body) with
    | error => rfl
    | ok page =>
      simp only [Stroke.runAll, Stroke.run, bind, Except.bind]
      cases page.dedent <;> rfl

/-- **Nesting is shorthand**: steps do what their strokes do. -/
theorem runAll_eq_strokes (page : Page) : (steps : List Step) →
    runAll page steps = Stroke.runAll page (strokesAll steps)
  | [] => rfl
  | step :: rest => by
    have hstep := run_eq_strokes page step
    rw [runAll, hstep, strokesAll, Stroke.runAll_append]
    cases Stroke.runAll page step.strokes with
    | error => rfl
    | ok page => exact runAll_eq_strokes page rest

end

end Step

end BuilderForge

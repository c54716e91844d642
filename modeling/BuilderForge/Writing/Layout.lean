import BuilderForge.Writing.Page

/-!
# Layouts

A layout is a text as its writer sees it: lines, blank lines, and blocks
with an opening and a closing line around what stands one level deeper.
Indentation follows from the nesting, so a layout cannot leave a level that
it did not enter.

Rendering a layout is the same as writing it on a page step by step
(`runAll_steps`), and that never faults.
-/

namespace BuilderForge

/-- A piece of indented text. -/
inductive Layout
  | line (content : String)
  | blank
  | block (opening closing : String) (body : List Layout)

namespace Layout

mutual

/-- The lines of a layout at the given depth. -/
def lines (depth : Nat) : Layout → List String
  | line content => [indentation depth ++ content]
  | blank => [""]
  | block opening closing body =>
    (indentation depth ++ opening) ::
      (linesAll (depth + 1) body ++ [indentation depth ++ closing])

/-- The lines of layouts, one after the other. -/
def linesAll (depth : Nat) : List Layout → List String
  | [] => []
  | layout :: rest => layout.lines depth ++ linesAll depth rest

end

/-- Lines as text, each with its line end. -/
def unlines (lines : List String) : String :=
  String.join (lines.map (· ++ "\n"))

/-- The text of layouts that begin at the margin. -/
def render (layouts : List Layout) : String :=
  unlines (linesAll 0 layouts)

/-- A block in braces behind its head. -/
def braced (head : String) (body : List Layout) : Layout :=
  block (head ++ " \x7b") "\x7d" body

mutual

/-- The step that writes a layout. -/
def step : Layout → Step
  | line content => .stroke (.line content)
  | blank => .stroke .blank
  | block opening closing body => .block opening closing (steps body)

/-- The steps that write layouts, one after the other. -/
def steps : List Layout → List Step
  | [] => []
  | layout :: rest => layout.step :: steps rest

end

@[simp]
theorem unlines_nil : unlines [] = "" := rfl

@[simp]
theorem unlines_cons (line : String) (rest : List String) :
    unlines (line :: rest) = line ++ "\n" ++ unlines rest := by
  simp [unlines, String.join_cons]

@[simp]
theorem unlines_append (first second : List String) :
    unlines (first ++ second) = unlines first ++ unlines second := by
  induction first with
  | nil => simp
  | cons line rest ih => simp [ih, String.append_assoc]

mutual

/-- Writing a layout adds its lines and keeps the depth. -/
theorem run_step (page : Page) : (layout : Layout) →
    layout.step.run page =
      .ok { page with text := page.text ++ unlines (layout.lines page.depth) }
  | line content => by
    simp [step, Step.run, Stroke.run, Page.line, lines, String.append_assoc]
  | blank => by
    simp [step, Step.run, Stroke.run, Page.blank, lines]
  | block opening closing body => by
    rw [step, Step.run, runAll_steps]
    simp [bind, Except.bind, pure, Except.pure, Page.line, Page.indent, Page.dedent, lines,
      String.append_assoc]

/-- **Layouts write without fault**: the steps add the lines of the layouts
and return to the depth where they began. -/
theorem runAll_steps (page : Page) : (layouts : List Layout) →
    Step.runAll page (steps layouts) =
      .ok { page with text := page.text ++ unlines (linesAll page.depth layouts) }
  | [] => by
    simp [steps, Step.runAll, linesAll]
  | layout :: rest => by
    rw [steps, Step.runAll, run_step]
    simp only [bind, Except.bind]
    rw [runAll_steps]
    simp [linesAll, String.append_assoc]

end

end Layout

end BuilderForge

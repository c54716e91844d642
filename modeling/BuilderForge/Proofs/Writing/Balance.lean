import BuilderForge.Writing.Page
import Mathlib.Data.List.Induction

/-!
# Indents and dedents in balance

Steps do what they do when every block is spelled out, so all that there is to
know of them is known of their strokes, one after the other. Where strokes
begin at the margin, the depth that they lead to is a matter of counting: it
is their indents less their dedents, their `balance`. A stroke writes at the
depth that the strokes ahead of it lead to, and so the text is known from the
strokes alone (`output`).

One step lemma carries all of this: it says for every stroke which page it can
lead to, and that there is none if it is a dedent at the margin
(`run_eq_ok_iff`). Strokes therefore fail exactly if a dedent is reached at
the margin (`runAll_eq_error_iff`), and that is where more dedents than
indents have come for the first time (`dedentsAtMargin_iff`). Nothing is asked
of the nesting: a block may close at another depth than it opened.
-/

namespace BuilderForge

namespace Stroke

variable {page next : Page} {stroke : Stroke} {strokes : List Stroke}

/-! ## What strokes write -/

/-- The indents of strokes less their dedents. -/
def balance (strokes : List Stroke) : Int :=
  strokes.count .indent - strokes.count .dedent

/-- What a stroke writes at a depth: a line has four spaces for each level in
front, and a blank line has none. -/
def written (depth : Nat) : Stroke → String
  | line content => String.ofList (List.replicate (4 * depth) ' ') ++ content ++ "\n"
  | blank => "\n"
  | indent | dedent => ""

/-- What strokes write that begin at the margin, each at the depth that the
strokes ahead of it lead to. -/
def output (strokes : List Stroke) : String :=
  String.join (strokes.mapIdx fun i stroke => stroke.written (balance (strokes.take i)).toNat)

/-- **What strokes leave behind** that run through from the margin. -/
structure Leaves (strokes : List Stroke) (page : Page) : Prop where
  /-- The strokes up to any of them lead to the depth that they balance to. -/
  depth : ∀ before, before <+: strokes →
    ∃ here, runAll .empty before = .ok here ∧ (here.depth : Int) = balance before
  /-- Each stroke has written at the depth where it was reached. -/
  text : page.text = output strokes

/-- A dedent is reached at the margin. -/
def DedentsAtMargin (strokes : List Stroke) : Prop :=
  ∃ before after, strokes = before ++ .dedent :: after ∧
    ∃ page, runAll .empty before = .ok page ∧ page.depth = 0

theorem balance_concat (strokes : List Stroke) (stroke : Stroke) :
    balance (strokes ++ [stroke]) = balance strokes + balance [stroke] := by
  simp only [balance, List.count_append]
  omega

/-- A stroke at the end writes at the depth that the others lead to. -/
theorem output_concat (strokes : List Stroke) (stroke : Stroke) :
    output (strokes ++ [stroke]) = output strokes ++ stroke.written (balance strokes).toNat := by
  have hbefore : (strokes.mapIdx fun i other =>
        other.written (balance ((strokes ++ [stroke]).take i)).toNat) =
      strokes.mapIdx fun i other => other.written (balance (strokes.take i)).toNat := by
    refine List.mapIdx_eq_mapIdx_iff.2 fun i hi => ?_
    rw [List.take_append_of_le_length (by omega)]
  rw [output, List.mapIdx_concat, hbefore, String.join_append]
  simp [output]

/-! ## One stroke -/

/-- **Where a stroke can lead**: to the page with what it writes, at the depth
that it balances to. A dedent at the margin would lead below it, and there is
no such page. -/
theorem run_eq_ok_iff : stroke.run page = .ok next ↔
    (next.depth : Int) = page.depth + balance [stroke] ∧
      next.text = page.text ++ stroke.written page.depth := by
  obtain ⟨depth, text⟩ := page
  obtain ⟨nextDepth, nextText⟩ := next
  cases stroke with
  | line content =>
    have hbalance : balance [.line content] = 0 := rfl
    have hspaces : indentation depth = String.ofList (List.replicate (4 * depth) ' ') := by
      rw [indentation, indentWidth, Nat.mul_comm]
    simp only [run, Page.line, written, Except.ok.injEq, Page.mk.injEq, hbalance, hspaces,
      String.append_assoc]
    exact and_congr (by omega) eq_comm
  | blank =>
    have hbalance : balance [.blank] = 0 := rfl
    simp only [run, Page.blank, written, Except.ok.injEq, Page.mk.injEq, hbalance]
    exact and_congr (by omega) eq_comm
  | indent =>
    have hbalance : balance [.indent] = 1 := rfl
    simp only [run, Page.indent, written, String.append_empty, Except.ok.injEq, Page.mk.injEq,
      hbalance]
    exact and_congr (by omega) eq_comm
  | dedent =>
    have hbalance : balance [.dedent] = -1 := rfl
    cases depth with
    | zero =>
      simp only [run, Page.dedent, reduceCtorEq, hbalance, false_iff, not_and]
      omega
    | succ depth =>
      simp only [run, Page.dedent, written, String.append_empty, Except.ok.injEq, Page.mk.injEq,
        hbalance]
      exact and_congr (by omega) eq_comm

/-- The only stroke to fail is a dedent, at the margin. -/
theorem run_eq_error_iff {fault : WriterFault} : stroke.run page = .error fault ↔
    stroke = .dedent ∧ page.depth = 0 := by
  obtain ⟨depth, text⟩ := page
  cases fault
  cases stroke <;> cases depth <;> simp [run, Page.dedent]

/-- A stroke runs behind others where these run through. -/
theorem runAll_concat_eq_ok_iff : runAll page (strokes ++ [stroke]) = .ok next ↔
    ∃ here, runAll page strokes = .ok here ∧ stroke.run here = .ok next := by
  rw [runAll_append]
  cases runAll page strokes with
  | error => simp
  | ok here =>
    simp only [runAll, Except.ok.injEq, exists_eq_left']
    cases stroke.run here <;> simp [bind, Except.bind]

/-! ## All strokes -/

/-- **Depth and text are a matter of the strokes**, wherever these run
through: of counting, and of writing at the depths counted. -/
theorem page_of_runAll (h : runAll .empty strokes = .ok page) :
    (page.depth : Int) = balance strokes ∧ page.text = output strokes := by
  induction strokes using List.reverseRecOn generalizing page with
  | nil =>
    obtain rfl : Page.empty = page := Except.ok.inj h
    exact ⟨rfl, rfl⟩
  | append_singleton strokes stroke ih =>
    obtain ⟨here, hhere, hstep⟩ := runAll_concat_eq_ok_iff.1 h
    obtain ⟨hdepth, htext⟩ := ih hhere
    obtain ⟨hnext, hwritten⟩ := run_eq_ok_iff.1 hstep
    rw [balance_concat, output_concat, ← hdepth, ← htext, Int.toNat_natCast]
    exact ⟨hnext, hwritten⟩

/-- Strokes that run through do so up to any of them. -/
theorem exists_runAll_of_prefix {before : List Stroke} (h : runAll page strokes = .ok next)
    (hbefore : before <+: strokes) : ∃ here, runAll page before = .ok here := by
  obtain ⟨after, rfl⟩ := hbefore
  rw [runAll_append] at h
  cases hrun : runAll page before with
  | error => rw [hrun] at h; cases h
  | ok here => exact ⟨here, rfl⟩

/-- **Strokes fail exactly if a dedent is reached at the margin.** -/
theorem runAll_eq_error_iff :
    runAll .empty strokes = .error .dedentAtZero ↔ DedentsAtMargin strokes := by
  constructor
  · intro h
    induction strokes using List.reverseRecOn with
    | nil => cases h
    | append_singleton strokes stroke ih =>
      cases hrun : runAll .empty strokes with
      | error fault =>
        cases fault
        obtain ⟨before, after, rfl, hreached⟩ := ih hrun
        exact ⟨before, after ++ [stroke], by simp, hreached⟩
      | ok page =>
        have hstep : stroke.run page = .error .dedentAtZero := by
          rw [runAll_append, hrun] at h
          simp only [runAll] at h
          cases hstroke : stroke.run page with
          | error fault => cases fault; rfl
          | ok next => rw [hstroke] at h; cases h
        obtain ⟨rfl, hmargin⟩ := run_eq_error_iff.1 hstep
        exact ⟨strokes, [], rfl, page, hrun, hmargin⟩
  · rintro ⟨before, after, rfl, page, hrun, hmargin⟩
    have hstep : run page .dedent = .error .dedentAtZero := run_eq_error_iff.2 ⟨rfl, hmargin⟩
    simp only [runAll_append, hrun, runAll, hstep]
    rfl

/-- **A dedent is reached at the margin exactly if** somewhere more dedents
than indents have come. -/
theorem dedentsAtMargin_iff :
    DedentsAtMargin strokes ↔ ∃ before, before <+: strokes ∧ balance before < 0 := by
  constructor
  · rintro ⟨before, after, rfl, page, hrun, hmargin⟩
    refine ⟨before ++ [.dedent], ⟨after, by simp⟩, ?_⟩
    have hbalance : balance [.dedent] = -1 := rfl
    rw [balance_concat, ← (page_of_runAll hrun).1, hmargin, hbalance]
    omega
  · rintro ⟨before, hbefore, hnegative⟩
    rw [← runAll_eq_error_iff]
    cases hrun : runAll .empty strokes with
    | error fault => cases fault; rfl
    | ok page =>
      -- strokes that run through never count below zero
      obtain ⟨here, hhere⟩ := exists_runAll_of_prefix hrun hbefore
      have hdepth := (page_of_runAll hhere).1
      omega

end Stroke

namespace Step

/-- Strokes are spelled out already. -/
theorem strokesAll_map_stroke (strokes : List Stroke) :
    strokesAll (strokes.map stroke) = strokes := by
  induction strokes with
  | nil => rfl
  | cons stroke rest ih => rw [List.map_cons, strokesAll, strokes, ih, List.singleton_append]

/-- Steps with every block spelled out: its opening line, an indent, its body, a
dedent and its closing line. -/
def flat (steps : List Step) : List Step :=
  (strokesAll steps).map stroke

/-- **Spelling blocks out changes nothing.** -/
theorem runAll_flat (page : Page) (steps : List Step) :
    runAll page (flat steps) = runAll page steps := by
  rw [flat, runAll_eq_strokes, runAll_eq_strokes, strokesAll_map_stroke]

/-- **Steps are written as if spelled out.** They fail exactly if a dedent is
reached at the margin, be it a step of its own or the end of a block, and that
is if somewhere more dedents than indents have come. Otherwise the depth is
indents less dedents all along, and the text is what each stroke writes at its
depth. -/
theorem nested_steps_balance (steps : List Step) :
    runAll .empty steps = runAll .empty (flat steps) ∧
      (runAll .empty steps = .error .dedentAtZero ↔
        Stroke.DedentsAtMargin (strokesAll steps)) ∧
      (Stroke.DedentsAtMargin (strokesAll steps) ↔
        ∃ before, before <+: strokesAll steps ∧ Stroke.balance before < 0) ∧
      (¬Stroke.DedentsAtMargin (strokesAll steps) →
        ∃ page, runAll .empty steps = .ok page ∧ Stroke.Leaves (strokesAll steps) page) := by
  rw [runAll_flat, runAll_eq_strokes]
  refine ⟨rfl, Stroke.runAll_eq_error_iff, Stroke.dedentsAtMargin_iff, fun hnever => ?_⟩
  cases hrun : Stroke.runAll .empty (strokesAll steps) with
  | error fault =>
    cases fault
    exact absurd (Stroke.runAll_eq_error_iff.1 hrun) hnever
  | ok page =>
    refine ⟨page, rfl, fun before hbefore => ?_, (Stroke.page_of_runAll hrun).2⟩
    obtain ⟨here, hhere⟩ := Stroke.exists_runAll_of_prefix hrun hbefore
    exact ⟨here, hhere, (Stroke.page_of_runAll hhere).1⟩

/-- A block that closes one level deeper than it opened. -/
def lopsidedSteps : List Step :=
  [.block "(" ")" [.stroke .indent, .stroke (.line "a")], .stroke .blank, .stroke .dedent]

/-- The lopsided block runs through and leaves its lines at three depths, while
a block whose body takes back its indent cannot be closed. -/
theorem nested_steps_balance_of_lopsided :
    ¬Stroke.DedentsAtMargin (strokesAll lopsidedSteps) ∧
      (∃ page, runAll .empty lopsidedSteps = .ok page ∧
        Stroke.Leaves (strokesAll lopsidedSteps) page) ∧
      runAll .empty lopsidedSteps = .ok ⟨0, "(\n        a\n    )\n\n"⟩ ∧
      Stroke.DedentsAtMargin (strokesAll [.block "(" ")" [.stroke .dedent]]) := by
  have hrun : runAll .empty lopsidedSteps = .ok ⟨0, "(\n        a\n    )\n\n"⟩ := rfl
  have hnever : ¬Stroke.DedentsAtMargin (strokesAll lopsidedSteps) := by
    rw [← (nested_steps_balance lopsidedSteps).2.1, hrun]
    exact nofun
  exact ⟨hnever, (nested_steps_balance lopsidedSteps).2.2.2 hnever, hrun,
    (nested_steps_balance [.block "(" ")" [.stroke .dedent]]).2.1.1 rfl⟩

end Step

end BuilderForge

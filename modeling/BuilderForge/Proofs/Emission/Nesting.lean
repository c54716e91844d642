import BuilderForge.Proofs.Emission.Agreement
import BuilderForge.Proofs.Writing.Nesting

/-!
# Emitted text is well nested

What a builder is made of behind its header is in braces, section by section
(`Plan.isBraced_of_mem_code`): every line begins with a word, a name or a mark
and ends with something that is no opening brace, unless it opens a block.
Types and targets may be called whatever they are called; they stand between
the two ends of a line. So the strokes that write a builder never leave a
level that is not open, and in the text the braces tell the indentation of
every line (`emitted_text_wellNested`).
-/

namespace BuilderForge

open Layout Text

namespace Plan

variable {plan : Plan} {planned : PlannedMember} {options : EmitOptions}

/-- What the writer does, stroke by stroke: it writes a line, leaves one
blank, enters a level or leaves one. -/
def strokes (plan : Plan) (options : EmitOptions) : List Stroke :=
  Step.strokesAll (steps (plan.layout options))

/-- **The strokes never leave a level that is not open.** They write the text
and return to the margin. -/
theorem runAll_strokes (plan : Plan) (options : EmitOptions) :
    Stroke.runAll .empty (plan.strokes options) = .ok ⟨0, render (plan.layout options)⟩ := by
  rw [strokes, ← Step.runAll_eq_strokes, runAll_steps]
  simp [Page.empty, render]

/-! ## The sections in braces -/

theorem isBraced_fields (h : ∀ planned ∈ plan.members, planned.IsNamed) :
    (plan.fields options).IsBraced := by
  have hfactory : Begins factoryField := begins_ofList (by decide)
  have hrules : Begins rulesField := begins_ofList (by decide)
  have hmember : ∀ planned ∈ plan.members, Begins (planned.field ++ ": Option<") :=
    fun planned hmem => .name_append (h planned hmem).field (begins_ofList (by decide))
  refine .block (begins_ofList (by decide)).append ?_
  simp only [List.forall_mem_append, List.forall_mem_cons, List.forall_mem_map]
  refine ⟨⟨?factory, ?rules, List.forall_mem_nil _⟩, fun planned hmem => ?member⟩
  case factory => exact .line hfactory.append.append.append (ends_ofList (by decide)).append
  case rules =>
    exact .line hrules.append.append.append.append.append (ends_ofList (by decide)).append
  case member =>
    exact .line (hmember planned hmem).append.append.append.append (ends_ofList (by decide)).append

theorem isBraced_of_mem_constructors (h : ∀ planned ∈ plan.members, planned.IsNamed) :
    ∀ layout ∈ plan.constructors options, layout.IsBraced := by
  have hfactory : Begins factoryField := begins_ofList (by decide)
  have hrules : Begins rulesField := begins_ofList (by decide)
  have hmember : ∀ planned ∈ plan.members, Begins (planned.field ++ ": None,") :=
    fun planned hmem => .name_append (h planned hmem).field (begins_ofList (by decide))
  simp only [constructors, List.forall_mem_cons]
  refine ⟨?default, ?new, .blank, ?comment, ?fromFactory, List.forall_mem_nil _⟩
  case default => exact .line (begins_ofList (by decide)) (ends_ofList (by decide))
  case new =>
    refine .block (begins_ofList (by decide)) (List.forall_mem_singleton.2 ?_)
    exact .line (begins_ofList (by decide)).append.append (ends_ofList (by decide)).append
  case comment => exact .line (begins_ofList (by decide)) (ends_ofList (by decide))
  case fromFactory =>
    refine .block (begins_ofList (by decide)).append.append (List.forall_mem_singleton.2 ?_)
    refine .block (begins_ofList (by decide)) ?_
    simp only [List.forall_mem_append, List.forall_mem_cons, List.forall_mem_map]
    refine ⟨⟨?_, ?_, List.forall_mem_nil _⟩, fun planned hmem => ?_⟩
    · exact .line hfactory.append (ends_ofList (by decide)).append
    · exact .line hrules.append.append.append (ends_ofList (by decide)).append
    · exact .line (hmember planned hmem) (ends_ofList (by decide)).append

theorem isBraced_of_mem_setters : ∀ layout ∈ setters planned, layout.IsBraced := by
  have hself : Begins "self." := begins_ofList (by decide)
  simp only [setters, List.forall_mem_cons]
  refine ⟨.blank, ?value, .blank, ?producer, List.forall_mem_nil _⟩
  case value =>
    refine .block (begins_ofList (by decide)).append.append.append.append.append.append
      (List.forall_mem_singleton.2 ?_)
    exact .line hself.append.append.append.append (ends_ofList (by decide)).append
  case producer =>
    refine .block (begins_ofList (by decide)).append.append.append.append.append.append ?_
    simp only [List.forall_mem_cons]
    refine ⟨?_, ?_, List.forall_mem_nil _⟩
    · exact .line hself.append.append.append.append (ends_ofList (by decide)).append
    · exact .line (begins_ofList (by decide)) (ends_ofList (by decide))

theorem isBraced_of_mem_consumption : ∀ layout ∈ consumption planned, layout.IsBraced := by
  have hinstance : Begins "instance." := begins_ofList (by decide)
  have hassignment : (assignment planned).IsBraced := by
    rw [assignment]
    split
    · refine .block (begins_ofList (by decide)) (List.forall_mem_singleton.2 ?_)
      exact .line hinstance.append.append (ends_ofList (by decide)).append
    · exact .line hinstance.append.append (ends_ofList (by decide)).append
  simp only [consumption, List.forall_mem_cons]
  exact ⟨.block (begins_ofList (by decide)).append (List.forall_mem_singleton.2 hassignment),
    .blank, List.forall_mem_nil _⟩

theorem isBraced_of_mem_build : ∀ layout ∈ plan.build options, layout.IsBraced := by
  have hself : Begins "self." := begins_ofList (by decide)
  have hbinding :
      Begins (if plan.members.isEmpty then "let instance" else "let mut instance") := by
    split <;> exact begins_ofList (by decide)
  simp only [build, List.forall_mem_cons]
  refine ⟨.blank, ?comment, ?method, List.forall_mem_nil _⟩
  case comment =>
    exact .line (begins_ofList (by decide)).append.append (ends_ofList (by decide)).append
  case method =>
    refine .block (begins_ofList (by decide)).append.append.append.append ?_
    simp only [List.forall_mem_append, List.forall_mem_cons, List.forall_mem_flatMap]
    refine ⟨⟨⟨?_, .blank, List.forall_mem_nil _⟩, fun planned _ => isBraced_of_mem_consumption⟩,
      ?_, .blank, ?_, List.forall_mem_nil _⟩
    · exact .line hbinding.append.append.append (ends_ofList (by decide)).append
    · exact .line hself.append.append (ends_ofList (by decide)).append
    · exact .line (begins_ofList (by decide)) (ends_ofList (by decide))

theorem isBraced_methods (h : ∀ planned ∈ plan.members, planned.IsNamed) :
    (plan.methods options).IsBraced := by
  refine .block (begins_ofList (by decide)).append ?_
  simp only [List.forall_mem_append, List.forall_mem_flatMap]
  exact ⟨⟨isBraced_of_mem_constructors h, fun planned _ => isBraced_of_mem_setters⟩,
    isBraced_of_mem_build⟩

theorem isBraced_footer : plan.footer.IsBraced := by
  refine .block (begins_ofList (by decide)).append (List.forall_mem_singleton.2 ?_)
  refine .block (begins_ofList (by decide)) (List.forall_mem_singleton.2 ?_)
  exact .line (begins_ofList (by decide)) (ends_ofList (by decide))

/-- What stands behind the header. -/
def code (plan : Plan) (options : EmitOptions) : List Layout :=
  [plan.fields options, blank, plan.methods options, blank, plan.footer]

/-- **All that stands behind the header is in braces**, if the members are
called by names. -/
theorem isBraced_of_mem_code (h : ∀ planned ∈ plan.members, planned.IsNamed) :
    ∀ layout ∈ plan.code options, layout.IsBraced := by
  simp only [code, List.forall_mem_cons]
  exact ⟨isBraced_fields h, .blank, isBraced_methods h, .blank, isBraced_footer,
    List.forall_mem_nil _⟩

/-! ## The lines from the struct on -/

/-- The line that opens the struct is the first of its kind, and with it
begins what stands behind the header. -/
theorem dropWhile_linesAll (plan : Plan) (options : EmitOptions) : ∃ rest,
    linesAll 0 (plan.code options) = ("pub struct " ++ plan.builder ++ " \x7b") :: rest ∧
    (linesAll 0 (plan.layout options)).dropWhile
        (· ≠ "pub struct " ++ plan.builder ++ " \x7b") =
      linesAll 0 (plan.code options) := by
  have hlines : linesAll 0 (plan.layout options) =
      linesAll 0 (plan.header options) ++ linesAll 0 (plan.code options) := by
    rw [layout, linesAll_append, code]
  have hheader : ∀ l ∈ linesAll 0 (plan.header options),
      decide (l ≠ "pub struct " ++ plan.builder ++ " \x7b") = true := by
    intro l hl
    rw [decide_eq_true_eq]
    rintro rfl
    have hopening : ['p'] <+: ("pub struct " ++ plan.builder ++ " \x7b").toList := by
      rw [String.append_assoc, String.toList_append]
      exact ⟨_, rfl⟩
    exact not_isPrefixOf_of_mem_header hl (by decide) hopening
  have hcode : linesAll 0 (plan.code options) =
      ("pub struct " ++ plan.builder ++ " \x7b") ::
        (linesAll 0 (plan.code options)).tail := by
    rw [code, linesAll, fields, lines_braced, indentation_zero, String.empty_append]
    rfl
  refine ⟨_, hcode, ?_⟩
  rw [hlines, List.dropWhile_append_of_pos hheader, hcode, List.dropWhile_cons_of_neg (by simp)]

end Plan

/-- **Emitted text is well nested.** The strokes that write it run without a
fault and end at the margin. The text is nothing but its lines, and from the
line that opens the struct these are well nested: each that is not blank
begins with four spaces for every level that the braces of the lines before
it have left open, not counting one that it closes itself, and in the end no
level is open. -/
theorem emitted_text_wellNested {spec : BuilderSpec} {options : EmitOptions} {text : String}
    (h : emitBuilder spec options = .ok text) (hspec : spec.OnLines) (hoptions : options.OnLines) :
    (∃ plan, Plan.ofSpec spec = .ok plan ∧
      Stroke.runAll .empty (plan.strokes options) = .ok ⟨0, text⟩) ∧
    Layout.unlines (Text.linesOf text) = text ∧
    ∃ rest, (Text.linesOf text).dropWhile (· ≠ "pub struct " ++ spec.name ++ " \x7b") =
        ("pub struct " ++ spec.name ++ " \x7b") :: rest ∧
      Text.WellNested (("pub struct " ++ spec.name ++ " \x7b") :: rest) := by
  obtain ⟨plan, hplan, rfl⟩ := emitBuilder_eq_ok_iff.1 h
  have hof := Plan.ofSpec_eq_ok hplan
  have honLines := hof.onLines hspec
  obtain ⟨rest, hcode, hstruct⟩ := plan.dropWhile_linesAll options
  rw [Plan.linesOf_render honLines hoptions, ← hof.builder]
  refine ⟨⟨plan, hplan, plan.runAll_strokes options⟩, rfl, rest, hstruct.trans hcode, ?_⟩
  rw [← hcode]
  exact wellNested_linesAll (Plan.isBraced_of_mem_code honLines.named)

/-- A builder whose target and types look like braces. -/
def bracedSpec : BuilderSpec where
  name := "BraceBuilder"
  scope := "\x7d"
  target := "\x7b"
  normal := [⟨"Open", "\x7b", .settable, .anywhere⟩]
  collections := [⟨"Closed", " \x7d", .collection, .inCrate⟩]
  normal_settable := by decide
  normal_ascends := by simp
  collections_collection := by decide
  collections_ascends := by simp

theorem bracedSpec_emits : ∃ text, emitBuilder bracedSpec .standard = .ok text :=
  ⟨_, emitBuilder_eq_ok_iff.2 ⟨⟨"BraceBuilder", "\x7d", "\x7b",
    [⟨⟨"Open", "\x7b", .settable, .anywhere⟩, "open", "open", "Open"⟩,
     ⟨⟨"Closed", " \x7d", .collection, .inCrate⟩, "closed", "closed", "Closed"⟩]⟩,
    by decide +kernel, rfl⟩⟩

theorem bracedSpec_onLines : bracedSpec.OnLines where
  name := by decide
  scope := by decide
  target := by decide
  member_name := by decide
  typeName := by decide

theorem emitted_text_wellNested_of_braces : ∃ text, emitBuilder bracedSpec .standard = .ok text ∧
    bracedSpec.OnLines ∧ EmitOptions.standard.OnLines ∧
    ∃ rest, (Text.linesOf text).dropWhile (· ≠ "pub struct BraceBuilder \x7b") =
        "pub struct BraceBuilder \x7b" :: rest ∧
      Text.WellNested ("pub struct BraceBuilder \x7b" :: rest) := by
  obtain ⟨text, htext⟩ := bracedSpec_emits
  obtain ⟨-, -, hnested⟩ := emitted_text_wellNested htext bracedSpec_onLines standard_onLines
  exact ⟨text, htext, bracedSpec_onLines, standard_onLines, hnested⟩

end BuilderForge

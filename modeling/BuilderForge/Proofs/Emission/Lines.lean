import BuilderForge.Proofs.Emission.Resolved
import BuilderForge.Proofs.Writing.Reading

/-!
# A builder line by line

The names in a plan are made of name characters, and everything else in the
text of a builder comes from the specification and the options as it is. So
if none of their texts breaks a line, no piece of the layout does
(`Plan.areFlat_layout`), and the text can be taken apart into the lines that
its writer wrote (`Plan.linesOf_render`).
-/

namespace BuilderForge

open Layout

/-- No text of the options breaks a line. -/
structure EmitOptions.OnLines (options : EmitOptions) : Prop where
  generatorName : Text.IsLine options.generatorName
  generatorVersion : Text.IsLine options.generatorVersion
  supportModule : Text.IsLine options.supportModule

/-- No text of the specification breaks a line. -/
structure BuilderSpec.OnLines (spec : BuilderSpec) : Prop where
  name : Text.IsLine spec.name
  scope : Text.IsLine spec.scope
  target : Text.IsLine spec.target
  member_name : ∀ member ∈ spec.members, Text.IsLine member.name
  typeName : ∀ member ∈ spec.members, Text.IsLine member.typeName

theorem EmitOptions.OnLines.isLine_banner {options : EmitOptions} (h : options.OnLines) :
    Text.IsLine options.banner := by
  unfold EmitOptions.banner
  simp only [Text.isLine_append, h.generatorName, h.generatorVersion, and_true]
  and_intros
  all_goals exact Text.isLine_ofList.2 (by decide)

namespace PlannedMember

/-- The names of a member are made of name characters. -/
structure IsNamed (planned : PlannedMember) : Prop where
  stem : Text.IsName planned.stem
  field : Text.IsName planned.field
  access : Text.IsName planned.access

theorem IsResolved.isNamed {planned : PlannedMember} (h : planned.IsResolved) :
    planned.IsNamed where
  stem := Text.isName_of_escape h.field
  field := Text.isName_escape h.field
  access := Text.isName_escape h.access

end PlannedMember

namespace Plan

variable {plan : Plan} {planned : PlannedMember} {options : EmitOptions}

theorem areFlat_setters (h : planned.IsNamed) (htype : Text.IsLine planned.member.typeName) :
    AreFlat (setters planned) := by
  have hstem := h.stem.isLine
  have hfield := h.field.isLine
  simp only [setters, PlannedMember.valueSetter, PlannedMember.producerSetter, AreFlat,
    isFlat_braced, isFlat_line, isFlat_blank, Text.isLine_append, hstem, hfield, htype, true_and,
    and_true]
  and_intros
  all_goals exact Text.isLine_ofList.2 (by decide)

theorem areFlat_consumption (h : planned.IsNamed) : AreFlat (consumption planned) := by
  have haccess := h.access.isLine
  have hfield := h.field.isLine
  rw [consumption, assignment]
  split
  all_goals
    simp only [AreFlat, isFlat_braced, isFlat_line, isFlat_blank, Text.isLine_append, haccess,
      hfield, and_true]
    and_intros
    all_goals exact Text.isLine_ofList.2 (by decide)

/-- No text that a plan holds breaks a line. -/
structure OnLines (plan : Plan) : Prop where
  builder : Text.IsLine plan.builder
  scope : Text.IsLine plan.scope
  target : Text.IsLine plan.target
  named : ∀ planned ∈ plan.members, planned.IsNamed
  typeName : ∀ planned ∈ plan.members, Text.IsLine planned.member.typeName

theorem IsOf.onLines {spec : BuilderSpec} (h : plan.IsOf spec) (hspec : spec.OnLines) :
    plan.OnLines where
  builder := h.builder ▸ hspec.name
  scope := h.scope ▸ hspec.scope
  target := h.target ▸ hspec.target
  named planned hmem := (h.resolved planned hmem).isNamed
  typeName _ hmem := hspec.typeName _ (h.members ▸ List.mem_map_of_mem hmem)

section Sections

variable (h : plan.OnLines) (hoptions : options.OnLines)
include h hoptions

theorem areFlat_header : AreFlat (plan.header options) := by
  have hscope : Text.IsLine (if plan.scope = "" then "(root)" else plan.scope) := by
    split
    · exact Text.isLine_ofList.2 (by decide)
    · exact h.scope
  simp only [header, generatedMark, quoted, areFlat_append, AreFlat, isFlat_line, isFlat_blank,
    Text.isLine_append, hoptions.isLine_banner, hscope, h.target, true_and, and_true]
  and_intros
  all_goals exact Text.isLine_ofList.2 (by decide)

theorem isFlat_fields : (plan.fields options).IsFlat := by
  have hmembers : ∀ planned ∈ plan.members, Text.IsLine (planned.field ++ ": Option<" ++
      options.supportModule ++ "::Producer<" ++ planned.member.typeName ++ ">>,") := by
    intro planned hmem
    simp only [Text.isLine_append, (h.named planned hmem).field.isLine, h.typeName planned hmem,
      hoptions.supportModule, true_and, and_true]
    and_intros
    all_goals exact Text.isLine_ofList.2 (by decide)
  rw [fields, isFlat_braced, areFlat_append, areFlat_map_line]
  refine ⟨?_, ?_, hmembers⟩
  all_goals
    simp only [factoryField, rulesField, AreFlat, isFlat_line, Text.isLine_append, h.builder,
      h.target, hoptions.supportModule, and_true]
    and_intros
    all_goals exact Text.isLine_ofList.2 (by decide)

theorem areFlat_constructors : AreFlat (plan.constructors options) := by
  have hmembers : ∀ planned ∈ plan.members, Text.IsLine planned.field ∧ Text.IsLine ": None," :=
    fun planned hmem => ⟨(h.named planned hmem).field.isLine, Text.isLine_ofList.2 (by decide)⟩
  simp only [constructors, factoryField, rulesField, AreFlat, isFlat_braced, isFlat_line,
    isFlat_blank, areFlat_append, areFlat_map_line, Text.isLine_append, h.target,
    hoptions.supportModule, true_and, and_true]
  and_intros
  all_goals first | exact Text.isLine_ofList.2 (by decide) | exact hmembers

theorem areFlat_build : AreFlat (plan.build options) := by
  have hbinding :
      Text.IsLine (if plan.members.isEmpty then "let instance" else "let mut instance") := by
    split <;> exact Text.isLine_ofList.2 (by decide)
  have hmembers : ∀ planned ∈ plan.members, AreFlat (consumption planned) :=
    fun planned hmem => areFlat_consumption (h.named planned hmem)
  simp only [build, quoted, factoryField, rulesField, AreFlat, isFlat_braced, isFlat_line,
    isFlat_blank, areFlat_append, areFlat_flatMap, Text.isLine_append, h.target,
    hoptions.supportModule, hbinding, true_and, and_true]
  and_intros
  all_goals first | exact Text.isLine_ofList.2 (by decide) | exact hmembers

/-- **No piece of a builder breaks a line** if no text of its plan and of the
options does. -/
theorem areFlat_layout : AreFlat (plan.layout options) := by
  have hsetters : AreFlat (plan.members.flatMap setters) := areFlat_flatMap.2 fun planned hmem =>
    areFlat_setters (h.named planned hmem) (h.typeName planned hmem)
  simp only [layout, methods, footer, AreFlat, isFlat_braced, isFlat_line, isFlat_blank,
    areFlat_append, areFlat_header h hoptions, isFlat_fields h hoptions,
    areFlat_constructors h hoptions, hsetters, areFlat_build h hoptions, Text.isLine_append,
    h.builder, true_and, and_true]
  and_intros
  all_goals exact Text.isLine_ofList.2 (by decide)

/-- **The lines of a builder are those that were written.** -/
theorem linesOf_render :
    Text.linesOf (render (plan.layout options)) = linesAll 0 (plan.layout options) :=
  Layout.linesOf_render (areFlat_layout h hoptions)

end Sections

end Plan

end BuilderForge

import BuilderForge.Proofs.Emission.Lines
import BuilderForge.Proofs.Emission.Outline

/-!
# The sections of a builder

The sections of a builder are written one by one, each with its own walk over
the members. This module reads them back one by one: the methods in the lines
of a block are the methods of its layouts (`Method.readFrom?_linesAll`), the setters
of a member do what they should (`Plan.read_setters`), the constructor
initialises the fields (`Plan.exists_constructors`), and `build` takes the
members one by one (`Plan.exists_build`).
-/

namespace BuilderForge

open Layout

/-! ## Methods of layouts -/

namespace Method

/-- The method that a layout is. -/
def ofLayout? : Layout → Option Method
  | .block opening _ body =>
    (Text.after? "pub fn " opening).map fun signature => ⟨signature, linesAll 2 body⟩
  | _ => none

/-- What stands in a block of methods: methods, blank lines and comments. -/
def Evident : Layout → Prop
  | .line content => ∃ comment, content = "///" ++ comment
  | .blank => True
  | .block opening closing _ => closing = "\x7d" ∧ ∃ signature, opening = "pub fn " ++ signature

theorem evident_blank : Evident blank := trivial

theorem evident_comment {comment : String} : Evident (line ("///" ++ comment)) := ⟨comment, rfl⟩

theorem evident_braced {signature : String} {body : List Layout} :
    Evident (braced ("pub fn " ++ signature) body) :=
  ⟨rfl, signature ++ " \x7b", String.append_assoc⟩

variable {method : Method} {layouts : List Layout} {body rest : List String}

/-- A method ends with the line that closes it. -/
theorem readFrom?_body (h : indentation 1 ++ "\x7d" ∉ body) :
    readFrom? (some method) (body ++ (indentation 1 ++ "\x7d") :: rest) =
      (readFrom? none rest).map ({ method with body := method.body ++ body } :: ·) := by
  induction body generalizing method with
  | nil => simp [readFrom?]
  | cons l body ih =>
    obtain ⟨hl, hbody⟩ : indentation 1 ++ "\x7d" ≠ l ∧ indentation 1 ++ "\x7d" ∉ body := by
      rwa [List.mem_cons, not_or] at h
    rw [List.cons_append, readFrom?, if_neg hl.symm, ih hbody]
    simp

/-- **The methods in the lines are those of the layouts.** -/
theorem readFrom?_linesAll (h : ∀ layout ∈ layouts, Evident layout) :
    readFrom? none (linesAll 1 layouts) = some (layouts.filterMap ofLayout?) := by
  induction layouts with
  | nil => simp [linesAll, readFrom?]
  | cons layout rest ih =>
    obtain ⟨hlayout, hrest⟩ := List.forall_mem_cons.1 h
    rw [linesAll]
    cases layout with
    | line content =>
      obtain ⟨comment, rfl⟩ := hlayout
      have hcomment : (Text.after? (indentation 1 ++ "///")
          (indentation 1 ++ ("///" ++ comment))).isSome := by
        rw [Text.after?_append_append, Text.after?_append, Option.isSome_some]
      rw [lines, List.singleton_append, readFrom?, if_pos (.inr hcomment), ih hrest]
      rfl
    | blank =>
      rw [lines, List.singleton_append, readFrom?, if_pos (.inl rfl), ih hrest]
      rfl
    | block opening closing body =>
      obtain ⟨rfl, signature, rfl⟩ := hlayout
      have hcode : ¬(indentation 1 ++ ("pub fn " ++ signature) = "" ∨
          (Text.after? (indentation 1 ++ "///")
            (indentation 1 ++ ("pub fn " ++ signature))).isSome) := by
        rw [Text.after?_append_append,
          Text.after?_eq_none (Text.not_isPrefixOf_of_differ (by decide))]
        simp
      rw [lines, List.cons_append, readFrom?, if_neg hcode, Text.after?_append_append,
        Text.after?_append, Option.bind_some, List.append_assoc, List.singleton_append,
        readFrom?_body closing_notMem_linesAll, ih hrest, List.filterMap_cons, ofLayout?,
        Text.after?_append]
      rfl

end Method

/-! ## Readings of several pieces -/

section Several

variable {α β γ : Type} {f : β → Option γ} {l : List α}

theorem mapM_map_eq_some {g : α → β} {r : α → γ} (h : ∀ a ∈ l, f (g a) = some (r a)) :
    (l.map g).mapM f = some (l.map r) := by
  induction l with
  | nil => rfl
  | cons a rest ih =>
    obtain ⟨ha, hrest⟩ := List.forall_mem_cons.1 h
    simp [ha, ih hrest]

theorem mapM_flatMap_eq_some {g : α → List β} {r : α → List γ}
    (h : ∀ a ∈ l, (g a).mapM f = some (r a)) : (l.flatMap g).mapM f = some (l.flatMap r) := by
  induction l with
  | nil => rfl
  | cons a rest ih =>
    obtain ⟨ha, hrest⟩ := List.forall_mem_cons.1 h
    simp [ha, ih hrest]

end Several

/-! ## What a member shows -/

namespace PlannedMember

variable {planned : PlannedMember}

section IsResolved

variable (h : planned.IsResolved)
include h

theorem IsResolved.fieldName_eq : planned.member.fieldName = planned.field := by
  rw [Member.fieldName, ← h.stem, h.field, Option.getD_some]

theorem IsResolved.accessName_eq : planned.member.accessName = planned.access := by
  rw [Member.accessName, h.access, Option.getD_some]

theorem IsResolved.valueSetter_eq : planned.member.valueSetter = planned.valueSetter := by
  rw [Member.valueSetter, ← h.stem, valueSetter]

theorem IsResolved.producerSetter_eq :
    planned.member.producerSetter = planned.producerSetter := by
  rw [Member.producerSetter, ← h.stem, producerSetter, valueSetter]

end IsResolved

theorem IsNamed.isName_valueSetter (h : planned.IsNamed) : Text.IsName planned.valueSetter :=
  Text.IsName.append (by decide) h.stem

theorem IsNamed.isName_producerSetter (h : planned.IsNamed) :
    Text.IsName planned.producerSetter :=
  h.isName_valueSetter.append (by decide)

end PlannedMember

namespace Plan

section Member

variable {planned : PlannedMember} (h : planned.IsResolved)
include h

/-- The methods of a member are its two setters. -/
theorem names_setters :
    ((setters planned).filterMap Method.ofLayout?).map Method.name =
      [planned.member.valueSetter, planned.member.producerSetter] := by
  have hvalue := h.isNamed.isName_valueSetter
  have hproducer := h.isNamed.isName_producerSetter
  simp (disch := first | assumption | (apply Text.endsName_ofList_append; decide)) only
    [setters, braced, Method.ofLayout?, String.append_assoc, Text.after?_append,
      List.filterMap_cons, List.filterMap_nil, Option.map_some, List.map_cons, List.map_nil,
      Method.name, Text.nameAt_append, h.valueSetter_eq, h.producerSetter_eq]

/-- **The first setter hands its value to the second one**, which stores into
the member's field. -/
theorem read_setters :
    ((setters planned).filterMap Method.ofLayout?).mapM Outline.readSetter? =
      some planned.member.settersShown := by
  have hvalue := h.isNamed.isName_valueSetter
  have hproducer := h.isNamed.isName_producerSetter
  have hfield := h.isNamed.field
  have hmut (rest : String) : Text.after? "(self, " ("(mut self, " ++ rest) = none :=
    Text.after?_eq_none (Text.not_isPrefixOf_of_differ (by decide))
  simp (disch := first | assumption | (apply Text.endsName_ofList_append; decide)) only
    [setters, braced, Method.ofLayout?, List.filterMap_cons, List.filterMap_nil, Option.map_some,
      List.mapM_cons, List.mapM_nil, Outline.readSetter?, Outline.readHandsOn?,
      Outline.readStores?, linesAll, lines, List.singleton_append, String.append_assoc,
      String.reduceAppend, Text.nameAt_append, Text.after?_append, Text.after?_append_append,
      Text.between?_append, hmut, Option.bind_eq_bind, Option.bind_some, Option.bind_none,
      Option.pure_def, Option.some_or, Option.none_or, if_true, and_self, Member.settersShown,
      h.valueSetter_eq, h.producerSetter_eq, h.fieldName_eq]

/-- **A member is consumed** as a whole, or item by item if it is a
collection. -/
theorem readStep?_consumption :
    Outline.readStep? ((braced ("if let Some(produce) = self." ++ planned.field)
      [assignment planned]).lines 2) = some planned.member.stepShown := by
  rw [assignment, Member.stepShown]
  split
  all_goals
    simp only [linesAll, lines_braced, lines, List.append_nil, List.cons_append, List.nil_append,
      Outline.readStep?, String.append_assoc, String.reduceAppend, Text.between?_append_append,
      Text.between?_append, h.fieldName_eq, h.accessName_eq, Option.bind_eq_bind,
      Option.bind_some, Option.pure_def, if_true, and_self]

end Member

/-! ## What the sections show -/

theorem readField?_append {depth : Nat} {field rest : String} (h : Text.IsName field) :
    Outline.readField? depth (indentation depth ++ (field ++ (": " ++ rest))) = some field := by
  have hname : Text.nameAt (field ++ (": " ++ rest)) = (field, ": " ++ rest) :=
    Text.nameAt_append h (Text.endsName_ofList_append (by decide))
  simp [Outline.readField?, hname]

theorem readStep?_binding {binding : String}
    (h : binding = "let instance" ∨ binding = "let mut instance") :
    Outline.readStep? ((line (binding ++ (" = (self." ++ (factoryField ++ ")();")))).lines 2) =
      some .start := by
  simp only [lines, Outline.readStep?, factoryField]
  rw [if_pos]
  · rfl
  · rcases h with rfl | rfl <;> simp

theorem readStep?_check :
    Outline.readStep? ((line ("self." ++ (rulesField ++ ".check(&instance)?;"))).lines 2) =
      some .check := by
  simp [lines, Outline.readStep?, rulesField]

theorem readStep?_finish : Outline.readStep? (linesAll 2 [line "Ok(instance)"]) = some .finish := by
  simp [linesAll, lines, Outline.readStep?]

/-- The members are consumed one by one, ahead of what follows. -/
theorem readSteps {members : List PlannedMember} (h : ∀ planned ∈ members, planned.IsResolved)
    {tail : List Layout} {steps : List Outline.BuildStep}
    (htail : (Text.paragraphs (linesAll 2 tail)).mapM Outline.readStep? = some steps) :
    (Text.paragraphs (linesAll 2 (members.flatMap consumption ++ tail))).mapM Outline.readStep? =
      some (members.map (fun planned => planned.member.stepShown) ++ steps) := by
  induction members with
  | nil => exact htail
  | cons planned rest ih =>
    obtain ⟨hplanned, hrest⟩ := List.forall_mem_cons.1 h
    have hblank : "" ∉ (braced ("if let Some(produce) = self." ++ planned.field)
        [assignment planned]).lines 2 := by
      rw [assignment]
      split <;> simp [linesAll, lines_braced, lines, indentation_append_ne_empty.symm]
    rw [List.flatMap_cons, List.append_assoc, consumption, List.cons_append,
      List.singleton_append, paragraphs_linesAll hblank, List.mapM_cons,
      readStep?_consumption hplanned, ih hrest]
    rfl

/-- The fields of the builder: two fixed ones and those of the members. -/
def fieldNames (plan : Plan) : List String :=
  factoryField :: rulesField :: plan.members.map fun planned => planned.member.fieldName

/-! The fixed methods begin like all others, and then their names come. -/

theorem opening_new : "pub fn new() -> Self" = "pub fn " ++ ("new" ++ "() -> Self") := by
  simp only [String.reduceAppend]

theorem opening_fromFactory : "pub fn from_factory(factory: impl Fn() -> " =
    "pub fn " ++ ("from_factory" ++ "(factory: impl Fn() -> ") := by
  simp only [String.reduceAppend]

theorem opening_build :
    "pub fn build(self) -> Result<" = "pub fn " ++ ("build" ++ "(self) -> Result<") := by
  simp only [String.reduceAppend]

section Sections

variable {plan : Plan} (h : ∀ planned ∈ plan.members, planned.IsResolved) (options : EmitOptions)
include h

/-- **The fields**, in the struct and in the constructor, whatever is said of
them there. -/
theorem readFields {depth : Nat} {factory rules : String} {f : PlannedMember → String} :
    (linesAll depth (line (factoryField ++ (": " ++ factory)) ::
        line (rulesField ++ (": " ++ rules)) ::
          plan.members.map fun planned => line (planned.field ++ (": " ++ f planned)))).mapM
        (Outline.readField? depth) =
      some plan.fieldNames := by
  have hfactory : Text.IsName factoryField := by decide
  have hrules : Text.IsName rulesField := by decide
  have hmembers : ∀ planned ∈ plan.members, Outline.readField? depth
      (indentation depth ++ (planned.field ++ (": " ++ f planned))) =
        some planned.member.fieldName := by
    intro planned hmem
    rw [(h planned hmem).fieldName_eq]
    exact readField?_append (h planned hmem).isNamed.field
  simp only [linesAll_map_line, linesAll, lines, List.singleton_append, List.mapM_cons,
    mapM_map_eq_some hmembers, readField?_append hfactory, readField?_append hrules]
  rfl

/-- **The constructors**: the second one initialises the fields. -/
theorem exists_constructors : ∃ new fromFactory : Method,
    (plan.constructors options).filterMap Method.ofLayout? = [new, fromFactory] ∧
      new.name = "new" ∧ fromFactory.name = "from_factory" ∧
        (Text.blockOf 2 "Self" fromFactory.body).mapM (Outline.readField? 3) =
          some plan.fieldNames := by
  refine ⟨?new, ?fromFactory, ?methods, ?_, ?_, ?fields⟩
  case methods =>
    simp only [constructors, List.filterMap_cons, List.filterMap_nil, Method.ofLayout?, braced,
      opening_new, opening_fromFactory, String.append_assoc, Text.after?_append, Option.map_some]
    rfl
  case fields =>
    have hfactory : ": Box::new(factory)," = ": " ++ "Box::new(factory)," := by
      simp only [String.reduceAppend]
    have hmember : ": None," = ": " ++ "None," := by simp only [String.reduceAppend]
    rw [← braced, blockOf_singleton, hfactory, hmember]
    exact readFields h
  all_goals
    dsimp only [Method.name]
    rw [Text.nameAt_append (by decide) (Text.endsName_ofList_append (by decide))]

/-- **The steps of `build`**: the members are consumed between the start and
the check. -/
theorem exists_build : ∃ build : Method,
    (plan.build options).filterMap Method.ofLayout? = [build] ∧ build.name = "build" ∧
      (Text.paragraphs build.body).mapM Outline.readStep? =
        some (.start :: (plan.members.map (fun planned => planned.member.stepShown) ++
          [.check, .finish])) := by
  refine ⟨?build, ?methods, ?name, ?steps⟩
  case methods =>
    simp only [build, List.filterMap_cons, List.filterMap_nil, Method.ofLayout?, braced,
      opening_build, String.append_assoc, Text.after?_append, Option.map_some]
    rfl
  case name =>
    dsimp only [Method.name]
    rw [Text.nameAt_append (by decide) (Text.endsName_ofList_append (by decide))]
  case steps =>
    have hline (content : String) : "" ∉ (line content).lines 2 := by
      simp [lines, indentation_append_ne_empty.symm]
    have htail : (Text.paragraphs (linesAll 2 [line ("self." ++ (rulesField ++
        ".check(&instance)?;")), blank, line "Ok(instance)"])).mapM Outline.readStep? =
          some [.check, .finish] := by
      have hlast : "" ∉ linesAll 2 [line "Ok(instance)"] := hline _
      rw [paragraphs_linesAll (hline _), Text.paragraphs_of_notMem hlast, List.mapM_cons,
        List.mapM_cons, readStep?_check, readStep?_finish]
      rfl
    -- the binding is mutable only if there are members to set
    generalize hbinding : (if plan.members.isEmpty = true then "let instance"
      else "let mut instance") = binding
    have hstart : binding = "let instance" ∨ binding = "let mut instance" := by
      rw [← hbinding]
      split <;> simp
    simp only [List.cons_append, List.nil_append, paragraphs_linesAll (hline _), List.mapM_cons,
      readStep?_binding hstart, readSteps h htail]
    rfl

end Sections

end Plan

end BuilderForge

import BuilderForge.Proofs.Emission.Agreement

/-!
# What a text tells of its specification

The outline of a specification has all of it that is written: the shown
namespace, the target, the builder's name and, member by member, the name, the
type and the kind (`Member.forall₂_alike_of_shown`). What is not in the
outline is not in the text either: two plans that agree so far have the same
layout (`Plan.layout_congr`). So a change to a specification reaches the text
exactly if it is a change to one of these things.
-/

namespace BuilderForge

open Layout

/-- The members differ in their visibility at most. -/
structure Member.Alike (member other : Member) : Prop where
  name : member.name = other.name
  typeName : member.typeName = other.typeName
  isCollection : member.isCollection = other.isCollection

/-! ## From the text to the specification -/

namespace Member

variable {member other : Member}

/-- A step of `build` tells the member's name and whether it is a
collection. -/
theorem Nameable.of_stepShown_eq (h : member.Nameable) (hother : other.Nameable)
    (heq : member.stepShown = other.stepShown) :
    member.name = other.name ∧ member.isCollection = other.isCollection := by
  have hname : member.accessName = other.accessName → member.name = other.name := fun haccess =>
    Text.escape_injective (haccess ▸ h.escape_name) hother.escape_name
  cases hcollection : member.isCollection <;> cases hsame : other.isCollection <;>
    simp only [stepShown, hcollection, hsame, if_true, if_false, Bool.false_eq_true,
      Outline.BuildStep.assign.injEq, Outline.BuildStep.push.injEq, reduceCtorEq] at heq
  · exact ⟨hname heq.2, rfl⟩
  · exact ⟨hname heq.2, rfl⟩

/-- **The members are told** by the setters and the steps. -/
theorem forall₂_alike_of_shown {first second : List Member} (hfirst : ∀ m ∈ first, m.Nameable)
    (hsecond : ∀ m ∈ second, m.Nameable) (hsteps : first.map stepShown = second.map stepShown)
    (hsetters : first.flatMap settersShown = second.flatMap settersShown) :
    List.Forall₂ Alike first second := by
  induction first generalizing second with
  | nil =>
    rw [List.map_nil, eq_comm, List.map_eq_nil_iff] at hsteps
    rw [hsteps]
    exact .nil
  | cons member rest ih =>
    cases second with
    | nil => cases hsteps
    | cons other others =>
      obtain ⟨hmember, hrest⟩ := List.forall_mem_cons.1 hfirst
      obtain ⟨hother, hothers⟩ := List.forall_mem_cons.1 hsecond
      rw [List.map_cons, List.map_cons, List.cons.injEq] at hsteps
      simp only [List.flatMap_cons, settersShown, List.cons_append, List.nil_append,
        List.cons.injEq, Outline.Setter.handsOn.injEq] at hsetters
      obtain ⟨⟨-, htype, -⟩, -, hsetters⟩ := hsetters
      obtain ⟨hname, hcollection⟩ := hmember.of_stepShown_eq hother hsteps.1
      exact .cons ⟨hname, htype, hcollection⟩ (ih hrest hothers hsteps.2 hsetters)

end Member

/-- **The outline tells the specification**, but for the visibilities and for
how the root namespace is spelled. -/
theorem BuilderSpec.of_outline_eq {first second : BuilderSpec}
    (hfirst : ∀ m ∈ first.members, m.Nameable) (hsecond : ∀ m ∈ second.members, m.Nameable)
    (h : first.outline = second.outline) :
    first.name = second.name ∧ first.target = second.target ∧
      first.shownScope = second.shownScope ∧
      List.Forall₂ Member.Alike first.members second.members := by
  have hsteps := congrArg Outline.steps h
  simp only [outline, List.cons.injEq, true_and, List.append_cancel_right_eq] at hsteps
  exact ⟨congrArg Outline.builder h, congrArg Outline.target h, congrArg Outline.scope h,
    Member.forall₂_alike_of_shown hfirst hsecond hsteps (congrArg Outline.setters h)⟩

/-! ## From the specification to the text -/

/-- What is done alike with related things comes to the same lists. -/
theorem map_eq_map_of_forall₂ {α β : Type} {R : α → α → Prop} {f : α → β} {first second : List α}
    (h : List.Forall₂ R first second) (hf : ∀ a b, R a b → f a = f b) :
    first.map f = second.map f := by
  rw [← List.forall₂_eq_eq_eq, List.forall₂_map_left_iff, List.forall₂_map_right_iff]
  exact h.imp hf

namespace PlannedMember

/-- The members are written alike. -/
structure Alike (planned other : PlannedMember) : Prop extends
    planned.member.Alike other.member where
  stem : planned.stem = other.stem
  field : planned.field = other.field
  access : planned.access = other.access

variable {planned other : PlannedMember}

/-- Members that differ in their visibility at most have the same names. -/
theorem IsResolved.alike (h : planned.IsResolved) (hother : other.IsResolved)
    (halike : planned.member.Alike other.member) : planned.Alike other where
  toAlike := halike
  stem := by rw [h.stem, hother.stem, Member.stem, Member.stem, halike.name]
  field := by
    rw [← h.fieldName_eq, ← hother.fieldName_eq, Member.fieldName, Member.fieldName, Member.stem,
      Member.stem, halike.name]
  access := by
    rw [← h.accessName_eq, ← hother.accessName_eq, Member.accessName, Member.accessName,
      halike.name]

theorem forall₂_alike {first second : List PlannedMember} (hfirst : ∀ p ∈ first, p.IsResolved)
    (hsecond : ∀ p ∈ second, p.IsResolved)
    (h : List.Forall₂ Member.Alike (first.map PlannedMember.member)
      (second.map PlannedMember.member)) : List.Forall₂ Alike first second := by
  rw [List.forall₂_map_left_iff, List.forall₂_map_right_iff, List.forall₂_iff_zip] at h
  refine List.forall₂_iff_zip.2 ⟨h.1, fun {p q} hmem => ?_⟩
  obtain ⟨hp, hq⟩ := List.of_mem_zip hmem
  exact (hfirst p hp).alike (hsecond q hq) (h.2 hmem)

theorem Alike.setters_eq (h : planned.Alike other) : Plan.setters planned = Plan.setters other := by
  simp only [Plan.setters, valueSetter, producerSetter, h.stem, h.field, h.typeName]

theorem Alike.consumption_eq (h : planned.Alike other) :
    Plan.consumption planned = Plan.consumption other := by
  simp only [Plan.consumption, Plan.assignment, h.field, h.access, h.isCollection]

end PlannedMember

namespace Plan

variable {plan other : Plan}

/-- **Plans that agree are written alike.** -/
theorem layout_congr (options : EmitOptions) (hbuilder : plan.builder = other.builder)
    (hscope : (if plan.scope = "" then "(root)" else plan.scope) =
      if other.scope = "" then "(root)" else other.scope)
    (htarget : plan.target = other.target)
    (hmembers : List.Forall₂ PlannedMember.Alike plan.members other.members) :
    plan.layout options = other.layout options := by
  have hfields : (plan.members.map fun planned => line (planned.field ++ ": Option<" ++
      options.supportModule ++ "::Producer<" ++ planned.member.typeName ++ ">>,")) =
        other.members.map fun planned => line (planned.field ++ ": Option<" ++
          options.supportModule ++ "::Producer<" ++ planned.member.typeName ++ ">>,") :=
    map_eq_map_of_forall₂ hmembers fun _ _ h => by rw [h.field, h.typeName]
  have hinitialised : (plan.members.map fun planned => line (planned.field ++ ": None,")) =
      other.members.map fun planned => line (planned.field ++ ": None,") :=
    map_eq_map_of_forall₂ hmembers fun _ _ h => by rw [h.field]
  have hsetters : plan.members.flatMap setters = other.members.flatMap setters := by
    rw [List.flatMap_def, List.flatMap_def,
      map_eq_map_of_forall₂ hmembers fun _ _ h => h.setters_eq]
  have hconsumption : plan.members.flatMap consumption = other.members.flatMap consumption := by
    rw [List.flatMap_def, List.flatMap_def,
      map_eq_map_of_forall₂ hmembers fun _ _ h => h.consumption_eq]
  have hempty : plan.members.isEmpty = other.members.isEmpty := by
    rw [Bool.eq_iff_iff, List.isEmpty_iff_length_eq_zero, List.isEmpty_iff_length_eq_zero,
      hmembers.length_eq]
  simp only [layout, header, fields, methods, constructors, build, footer, hbuilder, hscope,
    htarget, hfields, hinitialised, hsetters, hconsumption, hempty]

end Plan

/-- **The text determines the specification**, up to the visibilities and the
two spellings of the root namespace: two specifications that are written, none
of whose texts breaks a line, have the same text exactly if they agree in the
builder's name, the target, the shown namespace and, position by position, in
the names, types and kinds of the members. -/
theorem emitted_text_eq_iff {first second : BuilderSpec} {options : EmitOptions}
    {text other : String} (h : emitBuilder first options = .ok text)
    (hother : emitBuilder second options = .ok other) (hoptions : options.OnLines)
    (hfirst : first.OnLines) (hsecond : second.OnLines) :
    text = other ↔ first.name = second.name ∧ first.target = second.target ∧
      first.shownScope = second.shownScope ∧
      List.Forall₂ Member.Alike first.members second.members := by
  have hnames : ∀ m ∈ first.members, m.Nameable := fun m hm =>
    ((wellFormed_of_emitBuilder h).compatible.fits m hm).toNameable
  have hnames' : ∀ m ∈ second.members, m.Nameable := fun m hm =>
    ((wellFormed_of_emitBuilder hother).compatible.fits m hm).toNameable
  obtain ⟨plan, hplan, rfl⟩ := emitBuilder_eq_ok_iff.1 h
  obtain ⟨plan', hplan', rfl⟩ := emitBuilder_eq_ok_iff.1 hother
  have hof := Plan.ofSpec_eq_ok hplan
  have hof' := Plan.ofSpec_eq_ok hplan'
  constructor
  · intro heq
    refine BuilderSpec.of_outline_eq hnames hnames' (Option.some.inj ?_)
    rw [← Plan.read?_render hof hfirst hoptions, heq, Plan.read?_render hof' hsecond hoptions]
  · rintro ⟨hname, htarget, hscope, hmembers⟩
    rw [← hof.members, ← hof'.members] at hmembers
    refine congrArg render (Plan.layout_congr options ?_ ?_ ?_
      (PlannedMember.forall₂_alike hof.resolved hof'.resolved hmembers))
    · rw [hof.builder, hof'.builder, hname]
    · rw [hof.scope, hof'.scope]
      exact hscope
    · rw [hof.target, hof'.target, htarget]

/-- The order builder with its namespace spelled out and other visibilities. -/
def rootedOrderSpec : BuilderSpec where
  name := "OrderBuilder"
  scope := "(root)"
  target := "Order"
  normal := [⟨"type", "Kind", .settable, .inModule⟩]
  collections := [⟨"Tags", "Vec<String>", .collection, .anywhere⟩]
  normal_settable := by decide
  normal_ascends := by simp
  collections_collection := by decide
  collections_ascends := by simp

theorem rootedOrderSpec_emits : ∃ text, emitBuilder rootedOrderSpec .standard = .ok text :=
  ⟨_, emitBuilder_eq_ok_iff.2 ⟨⟨"OrderBuilder", "(root)", "Order",
    [⟨⟨"type", "Kind", .settable, .inModule⟩, "type", "r#type", "r#type"⟩,
     ⟨⟨"Tags", "Vec<String>", .collection, .anywhere⟩, "tags", "tags", "Tags"⟩]⟩,
    by decide +kernel, rfl⟩⟩

theorem rootedOrderSpec_onLines : rootedOrderSpec.OnLines where
  name := by decide
  scope := by decide
  target := by decide
  member_name := by decide
  typeName := by decide

/-- Two specifications of one text. -/
theorem emitted_text_eq_of_rooted : orderSpec ≠ rootedOrderSpec ∧ ∃ text,
    emitBuilder orderSpec .standard = .ok text ∧
      emitBuilder rootedOrderSpec .standard = .ok text := by
  obtain ⟨text, htext⟩ := orderSpec_emits
  obtain ⟨other, hother⟩ := rootedOrderSpec_emits
  have hmembers : List.Forall₂ Member.Alike orderSpec.members rootedOrderSpec.members :=
    .cons ⟨rfl, rfl, rfl⟩ (.cons ⟨rfl, rfl, rfl⟩ .nil)
  have heq : text = other := (emitted_text_eq_iff htext hother standard_onLines orderSpec_onLines
    rootedOrderSpec_onLines).2 ⟨rfl, rfl, by decide, hmembers⟩
  exact ⟨by decide, text, htext, heq ▸ hother⟩

end BuilderForge

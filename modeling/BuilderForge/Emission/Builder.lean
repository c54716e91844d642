import BuilderForge.Emission.Options
import BuilderForge.Emission.Plan
import BuilderForge.Writing.Layout

/-!
# The text of a builder

A builder is written in sections: a header, the struct with one field for
each member, the constructors, two setters for each member, the `build`
method, and a default. Within a section the members stand in the order of
the specification. The text is a function of the specification and the
options alone.
-/

namespace BuilderForge

namespace Layout

/-- The lines that mark a text as generated. -/
def generatedMark (banner : String) : List Layout :=
  [line "// <auto-generated>", line banner, line "// </auto-generated>"]

end Layout

open Layout

namespace Plan

variable (plan : Plan) (options : EmitOptions)

/-- Where the builder comes from and what it builds. -/
def header : List Layout :=
  generatedMark options.banner ++
    [line ("// namespace: " ++ if plan.scope = "" then "(root)" else plan.scope),
     blank,
     line ("/// Builder for " ++ quoted plan.target ++ ".")]

/-- The struct: the factory, the rules, and a producer for each member. -/
def fields : Layout :=
  braced ("pub struct " ++ plan.builder) <|
    [line (factoryField ++ ": Box<dyn Fn() -> " ++ plan.target ++ ">,"),
     line (rulesField ++ ": " ++ options.supportModule ++ "::DomainRules<" ++ plan.target ++
       ">,")] ++
    plan.members.map fun planned =>
      line (planned.field ++ ": Option<" ++ options.supportModule ++ "::Producer<" ++
        planned.member.typeName ++ ">>,")

/-- The constructors: from the default instance, and from a factory. -/
def constructors : List Layout :=
  [line "/// Creates a builder that starts from `Default::default()`.",
   braced "pub fn new() -> Self"
     [line ("Self::from_factory(<" ++ plan.target ++ " as Default>::default)")],
   blank,
   line "/// Creates a builder that starts from instances produced by `factory`.",
   braced ("pub fn from_factory(factory: impl Fn() -> " ++ plan.target ++ " + 'static) -> Self")
     [braced "Self" <|
       [line (factoryField ++ ": Box::new(factory),"),
        line (rulesField ++ ": " ++ options.supportModule ++ "::DomainRules::new(),")] ++
       plan.members.map fun planned => line (planned.field ++ ": None,")]]

/-- The setters of a member: one takes a value and hands it on as a
producer, the other stores a producer. -/
def setters (planned : PlannedMember) : List Layout :=
  [blank,
   braced ("pub fn " ++ planned.valueSetter ++ "(self, " ++ planned.field ++ ": " ++
       planned.member.typeName ++ ") -> Self")
     [line ("self." ++ planned.producerSetter ++ "(move || " ++ planned.field ++ ")")],
   blank,
   braced ("pub fn " ++ planned.producerSetter ++ "(mut self, " ++ planned.field ++
       ": impl FnOnce() -> " ++ planned.member.typeName ++ " + 'static) -> Self")
     [line ("self." ++ planned.field ++ " = Some(Box::new(" ++ planned.field ++ "));"),
      line "self"]]

/-- How `build` hands a produced value to the instance: as a whole, or
element by element. -/
def assignment (planned : PlannedMember) : Layout :=
  if planned.member.isCollection then
    braced "for item in produce()"
      [line ("instance." ++ planned.access ++ ".push(item);")]
  else line ("instance." ++ planned.access ++ " = produce();")

/-- The part of `build` that belongs to a member. -/
def consumption (planned : PlannedMember) : List Layout :=
  [braced ("if let Some(produce) = self." ++ planned.field) [assignment planned], blank]

/-- The `build` method: an instance from the factory, the members that were
set, and the check of the rules. -/
def build : List Layout :=
  [blank,
   line ("/// Returns a configured instance of " ++ quoted plan.target ++ "."),
   braced ("pub fn build(self) -> Result<" ++ plan.target ++ ", " ++ options.supportModule ++
       "::RuleViolation>") <|
     [line ((if plan.members.isEmpty then "let instance" else "let mut instance") ++
        " = (self." ++ factoryField ++ ")();"),
      blank] ++
     plan.members.flatMap consumption ++
     [line ("self." ++ rulesField ++ ".check(&instance)?;"),
      blank,
      line "Ok(instance)"]]

/-- The methods of the builder. -/
def methods : Layout :=
  braced ("impl " ++ plan.builder)
    (plan.constructors options ++ plan.members.flatMap setters ++ plan.build options)

/-- The default builder. -/
def footer : Layout :=
  braced ("impl Default for " ++ plan.builder)
    [braced "fn default() -> Self" [line "Self::new()"]]

/-- The whole builder. -/
def layout : List Layout :=
  plan.header options ++
    [plan.fields options, blank, plan.methods options, blank, plan.footer]

end Plan

/-- The text of a builder, or the reason why it cannot be written. -/
def emitBuilder (spec : BuilderSpec) (options : EmitOptions) : Except EmitError String := do
  let plan ← Plan.ofSpec spec
  return Layout.render (plan.layout options)

/-- There is a text exactly if there is a plan. -/
theorem emitBuilder_eq_ok_iff {spec : BuilderSpec} {options : EmitOptions} {text : String} :
    emitBuilder spec options = .ok text ↔
      ∃ plan, Plan.ofSpec spec = .ok plan ∧ text = Layout.render (plan.layout options) := by
  unfold emitBuilder
  cases Plan.ofSpec spec with
  | error => simp [bind, Except.bind]
  | ok plan => simp [bind, Except.bind, pure, Except.pure, eq_comm]

end BuilderForge

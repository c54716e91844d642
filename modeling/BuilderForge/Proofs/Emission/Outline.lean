import BuilderForge.Proofs.Emission.Resolved
import BuilderForge.Proofs.Writing.Reading

/-!
# What a builder shows

An `Outline` is what can be learned from the text of a builder by reading it
line by line (`Outline.read?`): the header, the fields that are declared, the
fields that the factory constructor initialises, the methods, what each
setter does, and the steps of `build`. The reader knows the shape of the
generated language and nothing else. It gives up where a line of a section is
none that belongs there, so what it reads is all that stands there.

`BuilderSpec.outline` says what there should be to read.
-/

namespace BuilderForge

/-- A method as it stands in its block: what follows `pub fn` in its first
line, and the lines of its body. -/
structure Method where
  /-- The first line from the name on. -/
  signature : String
  /-- The lines between the first line and the one that closes the body. -/
  body : List String
  deriving DecidableEq

namespace Method

/-- Reads the methods in the lines of a block at the margin. Between methods
there are blank lines and comments; inside of one, `current`, are the lines of
its body, up to the line that closes it. -/
def readFrom? (current : Option Method) : List String → Option (List Method)
  | [] => if current.isNone then some [] else none
  | line :: rest =>
    match current with
    | some method =>
      if line = indentation 1 ++ "\x7d" then (readFrom? none rest).map (method :: ·)
      else readFrom? (some { method with body := method.body ++ [line] }) rest
    | none =>
      if line = "" ∨ (Text.after? (indentation 1 ++ "///") line).isSome then readFrom? none rest
      else (Text.after? (indentation 1 ++ "pub fn ") line).bind fun signature =>
        readFrom? (some ⟨signature, []⟩) rest

/-- The name of a method. -/
def name (method : Method) : String :=
  (Text.nameAt method.signature).1

/-- The methods that every builder has. -/
def fixed : List String :=
  ["new", "from_factory", "build"]

end Method

namespace Outline

/-- What a setter does. -/
inductive Setter
  /-- It takes a value of the type and hands it to another method, as a
  producer. -/
  | handsOn (name typeName method : String)
  /-- It stores its parameter in a field. -/
  | stores (name field : String)
  deriving DecidableEq

/-- What is done in `build`. -/
inductive BuildStep
  /-- An instance is taken from the factory. -/
  | start
  /-- If the field is set, its product is assigned to a member. -/
  | assign (field access : String)
  /-- If the field is set, its product is pushed to a member item by item. -/
  | push (field access : String)
  /-- The rules are checked. -/
  | check
  /-- The instance is returned. -/
  | finish
  deriving DecidableEq

/-- Reads a setter that takes a value: the only line of its body calls a
method with the parameter. -/
def readHandsOn? (method : Method) : Option Setter := do
  let (name, rest) := Text.nameAt method.signature
  let (parameter, rest) := Text.nameAt (← Text.after? "(self, " rest)
  let typeName ← Text.between? ": " ") -> Self \x7b" rest
  match method.body with
  | [call] =>
    let (called, rest) := Text.nameAt (← Text.after? (indentation 2 ++ "self.") call)
    if rest = "(move || " ++ parameter ++ ")" then return .handsOn name typeName called else none
  | _ => none

/-- Reads a setter that stores a producer: the first line of its body puts
the parameter into a field, and the second one returns the builder. -/
def readStores? (method : Method) : Option Setter := do
  let (name, rest) := Text.nameAt method.signature
  let (parameter, rest) := Text.nameAt (← Text.after? "(mut self, " rest)
  let _ ← Text.between? ": impl FnOnce() -> " " + 'static) -> Self \x7b" rest
  match method.body with
  | [store, result] =>
    let (field, rest) := Text.nameAt (← Text.after? (indentation 2 ++ "self.") store)
    if rest = " = Some(Box::new(" ++ parameter ++ "));" ∧ result = indentation 2 ++ "self" then
      return .stores name field
    else none
  | _ => none

/-- Reads a setter. -/
def readSetter? (method : Method) : Option Setter :=
  (readHandsOn? method).or (readStores? method)

/-- Reads a paragraph of the body of `build`. -/
def readStep? : List String → Option BuildStep
  | [line] =>
    if line = indentation 2 ++ "let instance = (self.factory)();" ∨
        line = indentation 2 ++ "let mut instance = (self.factory)();" then return .start
    else if line = indentation 2 ++ "self.domain_rules.check(&instance)?;" then return .check
    else if line = indentation 2 ++ "Ok(instance)" then return .finish
    else none
  | [opening, assignment, closing] => do
    let field ← Text.between? (indentation 2 ++ "if let Some(produce) = self.") " \x7b" opening
    let access ← Text.between? (indentation 3 ++ "instance.") " = produce();" assignment
    if closing = indentation 2 ++ "\x7d" then return .assign field access else none
  | [opening, loop, push, loopEnd, closing] => do
    let field ← Text.between? (indentation 2 ++ "if let Some(produce) = self.") " \x7b" opening
    let access ← Text.between? (indentation 4 ++ "instance.") ".push(item);" push
    if loop = indentation 3 ++ "for item in produce() \x7b" ∧ loopEnd = indentation 3 ++ "\x7d" ∧
        closing = indentation 2 ++ "\x7d" then return .push field access
    else none
  | _ => none

/-- Reads the field at the front of a line at the given depth. -/
def readField? (depth : Nat) (line : String) : Option String := do
  let (field, rest) := Text.nameAt (← Text.after? (indentation depth) line)
  let _ ← Text.after? ": " rest
  return field

end Outline

/-- What can be read in the text of a builder. -/
structure Outline where
  /-- The namespace in the header. -/
  scope : String
  /-- The type in the header. -/
  target : String
  /-- The name of the struct. -/
  builder : String
  /-- The fields that the struct declares. -/
  fields : List String
  /-- The fields that `from_factory` initialises. -/
  initialised : List String
  /-- The names of the methods. -/
  methods : List String
  /-- What the methods do that not every builder has. -/
  setters : List Outline.Setter
  /-- What is done in `build`. -/
  steps : List Outline.BuildStep
  deriving DecidableEq

/-- **Reads a builder back** from its text. -/
def Outline.read? (text : String) : Option Outline := do
  let lines := Text.linesOf text
  let scope ← lines.findSome? (Text.after? "// namespace: ")
  let target ← lines.findSome? (Text.between? "/// Builder for `" "`.")
  let builder ← lines.findSome? (Text.between? "pub struct " " \x7b")
  let methods ← Method.readFrom? none (Text.blockOf 0 ("impl " ++ builder) lines)
  let fromFactory ← methods.find? (·.name = "from_factory")
  let build ← methods.find? (·.name = "build")
  return {
    scope, target, builder
    fields := ← (Text.blockOf 0 ("pub struct " ++ builder) lines).mapM (readField? 1)
    initialised := ← (Text.blockOf 2 "Self" fromFactory.body).mapM (readField? 3)
    methods := methods.map Method.name
    setters := ← (methods.filter (·.name ∉ Method.fixed)).mapM readSetter?
    steps := ← (Text.paragraphs build.body).mapM readStep? }

/-! ## What there should be to read -/

namespace Member

/-- The field of a member: its stem, escaped. -/
def fieldName (member : Member) : String :=
  (Text.escape member.stem).getD ""

/-- The member's own name, escaped. -/
def accessName (member : Member) : String :=
  (Text.escape member.name).getD ""

/-- The setter that takes a value. -/
def valueSetter (member : Member) : String :=
  "with_" ++ member.stem

/-- The setter that takes a producer of values. -/
def producerSetter (member : Member) : String :=
  "with_" ++ member.stem ++ "_fn"

/-- What the setters of a member do: the first one hands its value to the
second one, which stores into the member's field. -/
def settersShown (member : Member) : List Outline.Setter :=
  [.handsOn member.valueSetter member.typeName member.producerSetter,
   .stores member.producerSetter member.fieldName]

/-- How `build` consumes a member: item by item if it is a collection. -/
def stepShown (member : Member) : Outline.BuildStep :=
  if member.isCollection then .push member.fieldName member.accessName
  else .assign member.fieldName member.accessName

end Member

namespace BuilderSpec

/-- The namespace as a text shows it. -/
def shownScope (spec : BuilderSpec) : String :=
  if spec.scope = "" then "(root)" else spec.scope

/-- The fields of the builder. -/
def fieldNames (spec : BuilderSpec) : List String :=
  factoryField :: rulesField :: spec.members.map Member.fieldName

/-- The methods of the builder. -/
def methodNames (spec : BuilderSpec) : List String :=
  "new" :: "from_factory" ::
    (spec.members.flatMap (fun member => [member.valueSetter, member.producerSetter]) ++ ["build"])

/-- **What the text of a builder should show**. -/
def outline (spec : BuilderSpec) : Outline where
  scope := spec.shownScope
  target := spec.target
  builder := spec.name
  fields := spec.fieldNames
  initialised := spec.fieldNames
  methods := spec.methodNames
  setters := spec.members.flatMap Member.settersShown
  steps := .start :: (spec.members.map Member.stepShown ++ [.check, .finish])

end BuilderSpec

end BuilderForge

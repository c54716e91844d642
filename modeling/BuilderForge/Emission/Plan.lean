import BuilderForge.Spec
import BuilderForge.Text.Blank
import BuilderForge.Text.Identifier
import BuilderForge.Text.SnakeCase

/-!
# Emission plans

Before a builder is written, all its names are resolved. Each member gets a
field, named by its snake-case form, and two setters; a member keeps its own
name where an instance is accessed. A plan exists only if every name can be
used and no two fields and no two methods share one, so a builder is written
as a whole or not at all.

The checks come in a fixed order, and the first one that fails gives the
error: the builder's name, the target, then the members one by one, each on
its own before it is held against the members ahead of it.
-/

namespace BuilderForge

/-- Why a builder cannot be written. -/
inductive EmitError
  | emptyBuilderName
  | invalidBuilderName (name : String)
  | emptyTargetName
  | emptyMemberName (index : Nat)
  | emptyTypeName (member : String)
  | invalidMemberName (member : String)
  | reservedField (member field : String)
  | duplicateField (first second field : String)
  | duplicateMethod (first second method : String)
  deriving DecidableEq

/-- A name between the marks that set it off in messages. -/
def quoted (name : String) : String :=
  "`" ++ name ++ "`"

/-- The error in words. -/
def EmitError.message : EmitError → String
  | emptyBuilderName => "builder name is empty"
  | invalidBuilderName name => "builder name " ++ quoted name ++ " is not a valid type name"
  | emptyTargetName => "target type name is empty"
  | emptyMemberName index => "member #" ++ toString index ++ " has an empty name"
  | emptyTypeName member => "member " ++ quoted member ++ " has an empty type name"
  | invalidMemberName member => "member " ++ quoted member ++ " is not a valid field name"
  | reservedField member field =>
    "member " ++ quoted member ++ " maps to the reserved field " ++ quoted field
  | duplicateField first second field =>
    "members " ++ quoted first ++ " and " ++ quoted second ++ " both map to the field " ++
      quoted field
  | duplicateMethod first second method =>
    "members " ++ quoted first ++ " and " ++ quoted second ++ " both generate the method " ++
      quoted method

/-- The field that holds the instance factory. -/
def factoryField : String := "factory"

/-- The field that holds the domain rules. -/
def rulesField : String := "domain_rules"

/-- A member with the names it is written under. -/
structure PlannedMember where
  /-- The member. -/
  member : Member
  /-- The snake-case form of its name. -/
  stem : String
  /-- The name of its field, which is also that of the setters' parameter. -/
  field : String
  /-- The name under which an instance is accessed. -/
  access : String
  deriving DecidableEq

namespace PlannedMember

/-- The setter that takes a value. -/
def valueSetter (planned : PlannedMember) : String :=
  "with_" ++ planned.stem

/-- The setter that takes a producer of values. -/
def producerSetter (planned : PlannedMember) : String :=
  planned.valueSetter ++ "_fn"

/-- The methods that are generated for the member. -/
def setters (planned : PlannedMember) : List String :=
  [planned.valueSetter, planned.producerSetter]

/-- Resolves the names of the member at the given place. -/
def ofMember (index : Nat) (member : Member) : Except EmitError PlannedMember :=
  let stem := Text.snakeCase member.name
  if member.name = "" then .error (.emptyMemberName index)
  else if Text.isBlank member.typeName then .error (.emptyTypeName member.name)
  else match Text.escape member.name, Text.escape stem with
    | some access, some field => .ok { member, stem, field, access }
    | _, _ => .error (.invalidMemberName member.name)

/-- A member ahead whose field has the name of the given member's field. -/
def fieldClash (ahead : List PlannedMember) (planned : PlannedMember) : Option EmitError :=
  (ahead.find? (·.field = planned.field)).map fun first =>
    .duplicateField first.member.name planned.member.name planned.field

/-- A member ahead that generates the method `method` of the given member. -/
def methodClash (ahead : List PlannedMember) (planned : PlannedMember) (method : String) :
    Option EmitError :=
  (ahead.find? fun first => method ∈ first.setters).map fun first =>
    .duplicateMethod first.member.name planned.member.name method

/-- What keeps a member from being written behind those ahead of it. -/
def clash (ahead : List PlannedMember) (planned : PlannedMember) : Option EmitError :=
  if planned.field = factoryField ∨ planned.field = rulesField then
    some (.reservedField planned.member.name planned.field)
  else
    (fieldClash ahead planned).or <|
      (methodClash ahead planned planned.valueSetter).or <|
        methodClash ahead planned planned.producerSetter

/-- Resolves the names of `members`, which follow those `ahead`. -/
def ofMembers (ahead : List PlannedMember) : List Member → Except EmitError (List PlannedMember)
  | [] => .ok []
  | member :: rest => do
    let planned ← ofMember ahead.length member
    match clash ahead planned with
    | some error => throw error
    | none => return planned :: (← ofMembers (ahead ++ [planned]) rest)

end PlannedMember

/-- A builder with all its names resolved. -/
structure Plan where
  /-- The name of the builder. -/
  builder : String
  /-- The namespace, empty at the root. -/
  scope : String
  /-- The type it builds. -/
  target : String
  /-- The members with their names. -/
  members : List PlannedMember
  deriving DecidableEq

/-- Resolves all names of a specification, or says which check fails first. -/
def Plan.ofSpec (spec : BuilderSpec) : Except EmitError Plan := do
  if spec.name = "" then throw .emptyBuilderName
  if Text.escape spec.name ≠ some spec.name then throw (.invalidBuilderName spec.name)
  if Text.isBlank spec.target then throw .emptyTargetName
  let members ← PlannedMember.ofMembers [] spec.members
  return { builder := spec.name, scope := spec.scope, target := spec.target, members }

end BuilderForge

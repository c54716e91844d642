import BuilderForge.Emission.Builder
import BuilderForge.Proofs.Text.Escaping

/-!
# Members under their names

The names in a plan all come from the names of the members: the stem is the
snake-case form, the field is the name that the stem gives, and the access is
the name that the member's own name gives (`PlannedMember.IsResolved`). A
plan has the members of its specification, each resolved
(`Plan.ofSpec_eq_ok`), so whatever is said of a plan is said of the
specification.
-/

namespace BuilderForge

/-- What is made of a result is made of a result. -/
theorem map_eq_ok_iff {ε α β : Type} {result : Except ε α} {f : α → β} {b : β} :
    result.map f = .ok b ↔ ∃ a, result = .ok a ∧ f a = b := by
  cases result <;> simp [Except.map]

/-- The snake-case form of the member's name. -/
def Member.stem (member : Member) : String :=
  Text.snakeCase member.name

/-- What resolving a member needs: a type that shows, and names for the
member itself and for its stem. -/
structure Member.Nameable (member : Member) : Prop where
  type_shows : ∃ c ∈ member.typeName.toList, Text.isSpace c = false
  name_escapes : (Text.escape member.name).isSome
  stem_escapes : (Text.escape member.stem).isSome

namespace PlannedMember

/-- The names are those of the member. -/
structure IsResolved (planned : PlannedMember) : Prop where
  stem : planned.stem = planned.member.stem
  field : Text.escape planned.stem = some planned.field
  access : Text.escape planned.member.name = some planned.access

variable {planned other : PlannedMember} {member : Member} {index : Nat} {word name : String}

/-- A field is the name of a word exactly if the stem is the word. -/
theorem IsResolved.field_eq_iff (h : planned.IsResolved) (hword : Text.escape word = some name) :
    planned.field = name ↔ planned.stem = word := by
  constructor
  · intro heq
    exact Text.escape_injective (heq ▸ h.field) hword
  · intro heq
    have hfield := h.field
    rw [heq, hword] at hfield
    exact (Option.some.inj hfield).symm

/-- The value setter of a member has the name of a setter of another one if the
stems are the same, or if the other one's producer setter has it. -/
theorem valueSetter_mem_setters : planned.valueSetter ∈ other.setters ↔
    planned.stem = other.stem ∨ planned.stem = other.stem ++ "_fn" := by
  simp [setters, valueSetter, producerSetter, String.append_assoc]

/-- And so for the producer setter. -/
theorem producerSetter_mem_setters : planned.producerSetter ∈ other.setters ↔
    other.stem = planned.stem ++ "_fn" ∨ planned.stem = other.stem := by
  simp [setters, valueSetter, producerSetter, String.append_assoc, eq_comm]

/-- **Which members can be resolved**, and to what. -/
theorem ofMember_eq_ok_iff : ofMember index member = .ok planned ↔
    member.Nameable ∧ planned.member = member ∧ planned.IsResolved := by
  simp only [ofMember]
  constructor
  · intro h
    split at h
    · cases h
    split at h
    · cases h
    next hshows =>
    rw [Bool.not_eq_true, Text.isBlank_eq_false_iff] at hshows
    split at h
    · next access field haccess hfield =>
      obtain rfl := Except.ok.inj h
      exact ⟨⟨hshows, by rw [haccess]; rfl, by rw [Member.stem, hfield]; rfl⟩, rfl,
        rfl, hfield, haccess⟩
    · cases h
  · rintro ⟨hnames, rfl, hresolved⟩
    have hempty : planned.member.name ≠ "" := by
      intro hempty
      have hname := hnames.name_escapes
      rw [hempty] at hname
      revert hname
      decide
    rw [if_neg hempty, Text.isBlank_eq_false_iff.2 hnames.type_shows, if_neg Bool.false_ne_true,
      hresolved.access, ← Member.stem, ← hresolved.stem, hresolved.field]

section Members

variable {ahead plan : List PlannedMember} {members rest : List Member} {error : EmitError}

/-- A member that cannot be resolved ends the plan, -/
theorem ofMembers_cons_of_error (h : ofMember ahead.length member = .error error) :
    ofMembers ahead (member :: rest) = .error error := by
  rw [ofMembers, h]
  rfl

/-- and so does one that clashes with those ahead of it. -/
theorem ofMembers_cons_of_clash (h : ofMember ahead.length member = .ok planned)
    (hclash : clash ahead planned = some error) :
    ofMembers ahead (member :: rest) = .error error := by
  simp only [ofMembers, h, hclash, bind, Except.bind]
  rfl

/-- Any other is ahead of those that follow. -/
theorem ofMembers_cons_of_ok (h : ofMember ahead.length member = .ok planned)
    (hclash : clash ahead planned = none) :
    ofMembers ahead (member :: rest) =
      (ofMembers (ahead ++ [planned]) rest).map (planned :: ·) := by
  simp only [ofMembers, h, hclash, bind, Except.bind]
  cases ofMembers (ahead ++ [planned]) rest <;> rfl

/-- Members are resolved one by one, in their order. -/
theorem ofMembers_eq_ok (h : ofMembers ahead members = .ok plan) :
    plan.map PlannedMember.member = members ∧ ∀ planned ∈ plan, planned.IsResolved := by
  induction members generalizing ahead plan with
  | nil =>
    obtain rfl := Except.ok.inj h
    exact ⟨rfl, by simp⟩
  | cons member rest ih =>
    cases hplanned : ofMember ahead.length member with
    | error => rw [ofMembers_cons_of_error hplanned] at h; cases h
    | ok planned =>
      cases hclash : clash ahead planned with
      | some => rw [ofMembers_cons_of_clash hplanned hclash] at h; cases h
      | none =>
        rw [ofMembers_cons_of_ok hplanned hclash] at h
        obtain ⟨later, hlater, rfl⟩ := map_eq_ok_iff.1 h
        obtain ⟨-, rfl, hresolved⟩ := ofMember_eq_ok_iff.1 hplanned
        obtain ⟨rfl, hothers⟩ := ih hlater
        exact ⟨rfl, List.forall_mem_cons.2 ⟨hresolved, hothers⟩⟩

end Members

end PlannedMember

namespace Plan

/-- **What a plan is of its specification**. -/
structure IsOf (plan : Plan) (spec : BuilderSpec) : Prop where
  builder : plan.builder = spec.name
  scope : plan.scope = spec.scope
  target : plan.target = spec.target
  members : plan.members.map PlannedMember.member = spec.members
  resolved : ∀ planned ∈ plan.members, planned.IsResolved

/-- **The checks in their order**: the builder's name, the target, the
members. -/
theorem ofSpec_eq (spec : BuilderSpec) : ofSpec spec =
    if spec.name = "" then .error .emptyBuilderName
    else if Text.escape spec.name ≠ some spec.name then .error (.invalidBuilderName spec.name)
    else if Text.isBlank spec.target then .error .emptyTargetName
    else (PlannedMember.ofMembers [] spec.members).map fun members =>
      ⟨spec.name, spec.scope, spec.target, members⟩ := by
  unfold ofSpec
  split
  · rfl
  split
  · rfl
  split
  · rfl
  · cases PlannedMember.ofMembers [] spec.members <;> rfl

/-- A plan is of its specification. -/
theorem ofSpec_eq_ok {spec : BuilderSpec} {plan : Plan} (h : ofSpec spec = .ok plan) :
    plan.IsOf spec := by
  rw [ofSpec_eq] at h
  split at h
  · cases h
  split at h
  · cases h
  split at h
  · cases h
  obtain ⟨members, hmembers, rfl⟩ := map_eq_ok_iff.1 h
  obtain ⟨hsame, hresolved⟩ := PlannedMember.ofMembers_eq_ok hmembers
  exact ⟨rfl, rfl, rfl, hsame, hresolved⟩

end Plan

end BuilderForge

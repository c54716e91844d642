/-!
# Domain rules

A builder can be given rules that the built instance must satisfy. Each
rule forbids something and says what is wrong with an instance that does
it. An instance is checked against the rules in the order they were added,
and the first rule that it breaks is reported.
-/

namespace BuilderForge

variable {α : Type}

/-- A rule on instances. -/
structure DomainRule (α : Type) where
  /-- Whether the rule forbids an instance. -/
  forbids : α → Bool
  /-- What is wrong with an instance that the rule forbids. -/
  message : String

/-- The finding that an instance breaks a rule. -/
structure RuleViolation where
  /-- The message of the rule. -/
  message : String
  deriving DecidableEq

/-- The rules of a builder, in the order they were added. -/
structure DomainRules (α : Type) where
  rules : List (DomainRule α)

namespace DomainRules

/-- No rules. -/
def empty : DomainRules α := ⟨[]⟩

/-- The rules with one more at the end. -/
def add (rules : DomainRules α) (rule : DomainRule α) : DomainRules α :=
  ⟨rules.rules ++ [rule]⟩

/-- The number of rules. -/
def size (rules : DomainRules α) : Nat :=
  rules.rules.length

/-- Checks an instance; the first rule that it breaks is reported. -/
def check (rules : DomainRules α) (entity : α) : Except RuleViolation Unit :=
  match rules.rules.find? (·.forbids entity) with
  | some rule => .error ⟨rule.message⟩
  | none => .ok ()

@[simp]
theorem size_add (rules : DomainRules α) (rule : DomainRule α) :
    (rules.add rule).size = rules.size + 1 := by
  simp [add, size]

/-- An instance passes exactly if no rule forbids it. -/
theorem check_eq_ok_iff {rules : DomainRules α} {entity : α} :
    rules.check entity = .ok () ↔ ∀ rule ∈ rules.rules, rule.forbids entity = false := by
  unfold check
  split
  · next rule h =>
    have hmem := List.mem_of_find?_eq_some h
    have hforbids := List.find?_some h
    simp only [reduceCtorEq, false_iff, Classical.not_forall]
    exact ⟨rule, hmem, by simpa using hforbids⟩
  · next h => simpa using h

end DomainRules

end BuilderForge

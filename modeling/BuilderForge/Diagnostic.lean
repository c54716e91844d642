import BuilderForge.Shape.Structural

/-!
# Diagnostics

What a run has to say about single builders. Each diagnostic has a code,
which fixes its title, a severity, a message and notes; it is a plain value,
ordered field by field, so it can be part of what a cache keeps.
-/

namespace BuilderForge

open Std

/-- What a diagnostic is about. -/
inductive ErrorCode
  /-- The text of a builder could not be generated. -/
  | emissionFailed
  /-- Declarations of one builder name different target types. -/
  | conflictingTargets
  /-- Two builders claim the same artifact identifier. -/
  | identifierCollision
  deriving DecidableEq

namespace ErrorCode

/-- The codes in the order of their numbers. -/
def all : List ErrorCode :=
  [emissionFailed, conflictingTargets, identifierCollision]

/-- The code as text. -/
def text : ErrorCode → String
  | emissionFailed => "BGN001"
  | conflictingTargets => "BGN002"
  | identifierCollision => "BGN003"

/-- The title that goes with the code. -/
def title : ErrorCode → String
  | emissionFailed => "Unexpected error"
  | conflictingTargets => "Conflicting builder targets"
  | identifierCollision => "Artifact identifier collision"

/-- Whether the code reports something that stops no builder. -/
def isWarning : ErrorCode → Bool
  | emissionFailed => false
  | conflictingTargets | identifierCollision => true

/-- The place of the code among all codes. -/
def rank : ErrorCode → Nat
  | emissionFailed => 0
  | conflictingTargets => 1
  | identifierCollision => 2

/-- Reads a code; the letters may be of either case. -/
def ofText? (text : String) : Option ErrorCode :=
  all.find? fun code => code.text.toList == text.toList.map Char.toUpper

instance : Ord ErrorCode := ⟨compareOn rank⟩

instance : TransOrd ErrorCode := inferInstanceAs (TransCmp (compareOn rank))

theorem rank_injective {a b : ErrorCode} (h : a.rank = b.rank) : a = b := by
  cases a <;> cases b <;> simp_all [rank]

instance : LawfulEqOrd ErrorCode where
  eq_of_compare h := rank_injective (LawfulEqOrd.eq_of_compare h)

theorem mem_all (code : ErrorCode) : code ∈ all := by
  cases code <;> simp [all]

/-- A written code is read back. -/
theorem ofText?_text (code : ErrorCode) : ofText? code.text = some code := by
  cases code <;> decide

end ErrorCode

/-- How grave a diagnostic is, the gravest first. -/
inductive Severity
  | error
  | warning
  | note
  deriving DecidableEq

namespace Severity

/-- The severity as diagnostics show it. -/
def text : Severity → String
  | error => "error"
  | warning => "warning"
  | note => "note"

/-- The name of the severity. -/
def name : Severity → String
  | error => "Error"
  | warning => "Warning"
  | note => "Note"

/-- The place of a severity among the three. -/
def rank : Severity → Nat
  | error => 0
  | warning => 1
  | note => 2

instance : Ord Severity := ⟨compareOn rank⟩

instance : TransOrd Severity := inferInstanceAs (TransCmp (compareOn rank))

theorem rank_injective {a b : Severity} (h : a.rank = b.rank) : a = b := by
  cases a <;> cases b <;> simp_all [rank]

instance : LawfulEqOrd Severity where
  eq_of_compare h := rank_injective (LawfulEqOrd.eq_of_compare h)

end Severity

/-- A remark on one builder. -/
structure Diagnostic where
  /-- What it is about. -/
  code : ErrorCode
  /-- How grave it is. -/
  severity : Severity
  /-- The main message. -/
  message : String
  /-- What else there is to know. -/
  notes : List String
  deriving DecidableEq

namespace Diagnostic

/-- Whether the diagnostic reports an error. -/
def isError (diagnostic : Diagnostic) : Bool :=
  diagnostic.severity = .error

/-- The diagnostic as text: a headline, then one line for each note. -/
def display (diagnostic : Diagnostic) : String :=
  diagnostic.severity.text ++ " [" ++ diagnostic.code.text ++ "] " ++ diagnostic.code.title ++
    ": " ++ diagnostic.message ++
    String.join (diagnostic.notes.map fun note => "\n  = note: " ++ note)

/-- The order of diagnostics, field by field. -/
instance : Ord Diagnostic where
  compare := compareLex (compareOn code) <| compareLex (compareOn severity) <|
    compareLex (compareOn message) (compareOn notes)

instance : TransOrd Diagnostic :=
  inferInstanceAs (TransCmp (compareLex (compareOn code) <| compareLex (compareOn severity) <|
    compareLex (compareOn message) (compareOn notes)))

instance : LawfulEqOrd Diagnostic where
  eq_of_compare {a b} h := by
    obtain ⟨hcode, h⟩ := Ordering.then_eq_eq.1 h
    obtain ⟨hseverity, h⟩ := Ordering.then_eq_eq.1 h
    obtain ⟨hmessage, hnotes⟩ := Ordering.then_eq_eq.1 h
    cases a; cases b
    simp only [mk.injEq]
    exact ⟨LawfulEqOrd.eq_of_compare hcode, LawfulEqOrd.eq_of_compare hseverity,
      LawfulEqOrd.eq_of_compare hmessage, LawfulEqOrd.eq_of_compare hnotes⟩

instance : Structural Diagnostic where
  shape diagnostic := .record "Diagnostic"
    [("code", .unitVariant "ErrorCode" diagnostic.code.text),
     ("severity", .unitVariant "Severity" diagnostic.severity.name),
     ("message", shape diagnostic.message), ("notes", shape diagnostic.notes)]

end Diagnostic

end BuilderForge

import BuilderForge.Diagnostic
import BuilderForge.Emission.Builder

/-!
# Emission outcomes

Emitting a builder comes to its text or to a diagnostic that says why there
is none. Both are values that a cache can keep.
-/

namespace BuilderForge

/-- What emitting one builder came to. -/
inductive EmitOutcome
  | generated (text : String)
  | failed (diagnostic : Diagnostic)
  deriving DecidableEq

namespace EmitOutcome

/-- The text, if there is one. -/
def text? : EmitOutcome → Option String
  | generated text => some text
  | failed _ => none

/-- The diagnostic, if there is no text. -/
def diagnostic? : EmitOutcome → Option Diagnostic
  | generated _ => none
  | failed diagnostic => some diagnostic

/-- The diagnostic on a builder that cannot be written. -/
def failure (spec : BuilderSpec) (error : EmitError) : Diagnostic where
  code := .emissionFailed
  severity := .error
  message := "An error occurred while generating a builder for '" ++ spec.target ++ "'"
  notes := [error.message]

/-- Emits the builder of a specification. -/
def ofSpec (options : EmitOptions) (spec : BuilderSpec) : EmitOutcome :=
  match emitBuilder spec options with
  | .ok text => generated text
  | .error error => failed (failure spec error)

instance : Structural EmitOutcome where
  shape
    | generated text => .variant "EmitOutcome" "Generated" [("0", shape text)]
    | failed diagnostic => .variant "EmitOutcome" "Failed" [("0", shape diagnostic)]

end EmitOutcome

end BuilderForge

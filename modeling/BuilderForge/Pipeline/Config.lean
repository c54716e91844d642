import BuilderForge.Emission.Options

/-!
# Configuration

A pipeline is configured once: how many workers may share the work of a
stage, and what goes into the generated texts. The workers make no
difference to what a run answers, for the jobs of a stage do not depend on
each other and their results are put in order.
-/

namespace BuilderForge

/-- The configuration of a pipeline. -/
structure GeneratorConfig where
  /-- Whether several workers share the work of a stage. -/
  parallel : Bool
  /-- The number of workers; zero leaves the choice to the host. -/
  threads : Nat
  /-- What goes into the generated texts. -/
  options : EmitOptions
  deriving DecidableEq

namespace GeneratorConfig

/-- The configuration where nothing else is asked for. -/
def standard : GeneratorConfig where
  parallel := true
  threads := 0
  options := .standard

/-- The configuration with a single worker. -/
def sequential : GeneratorConfig :=
  { standard with parallel := false }

end GeneratorConfig

end BuilderForge

/-!
# Emission options

What every generated text of a pipeline has in common: who generated it,
which the banner at the top says, and where the generated code finds its
support module.
-/

namespace BuilderForge

/-- The settings that all generated texts share. -/
structure EmitOptions where
  /-- The name of the generator. -/
  generatorName : String
  /-- The version of the generator. -/
  generatorVersion : String
  /-- The path of the support module. -/
  supportModule : String
  deriving DecidableEq

namespace EmitOptions

/-- The settings where nothing else is asked for. -/
def standard : EmitOptions where
  generatorName := "bgen"
  generatorVersion := "v1"
  supportModule := "crate::bgen_support"

/-- The line that names the generator and warns of editing by hand. -/
def banner (options : EmitOptions) : String :=
  "//     Generated by " ++ options.generatorName ++ " " ++ options.generatorVersion ++
    ". Changes to this file will be lost when it is regenerated."

end EmitOptions

end BuilderForge

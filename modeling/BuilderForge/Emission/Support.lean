import BuilderForge.Artifact
import BuilderForge.Emission.Builder

/-!
# Support artifacts

Two artifacts are generated once, whatever builders there are: the marker
that declares a builder, and the support module that generated builders
call. Of the options they show only the banner.
-/

namespace BuilderForge

open Layout

/-- The identifier of the marker. -/
def markerId : ArtifactId := ⟨"builder_marker"⟩

/-- The identifier of the support module. -/
def rulesId : ArtifactId := ⟨"domain_rules"⟩

/-- The declaration of the marker. -/
def markerLayout (banner : String) : List Layout :=
  generatedMark banner ++
    [blank,
     line "/// Marks a hand-written declaration as the builder for `Target`.",
     line "///",
     line "/// The generator emits the fields and methods of every builder that",
     line "/// implements this trait.",
     braced "pub trait BuilderFor"
       [line "/// The data type the builder produces.",
        line "type Target;"]]

/-- The text of the marker. -/
def markerText (options : EmitOptions) : String :=
  render (markerLayout options.banner)

/-- The type of a rule violation, with its message. -/
def violationLayout : List Layout :=
  [line "/// A built instance violated a registered domain rule.",
   line "#[derive(Clone, Debug, PartialEq, Eq)]",
   braced "pub struct RuleViolation"
     [line "message: String,"],
   blank,
   braced "impl RuleViolation"
     [braced "pub fn new(message: impl Into<String>) -> Self"
       [braced "RuleViolation"
         [line "message: message.into(),"]],
      blank,
      line "/// The message the rule was registered with.",
      braced "pub fn message(&self) -> &str"
        [line "&self.message"]],
   blank,
   braced "impl std::fmt::Display for RuleViolation"
     [braced "fn fmt(&self, f: &mut std::fmt::Formatter<'_>) -> std::fmt::Result"
       [line "f.write_str(&self.message)"]],
   blank,
   line "impl std::error::Error for RuleViolation \x7b\x7d"]

/-- The registration of a rule. -/
def additionLayout : List Layout :=
  [line "/// Register a rule that fails the build with `message` whenever",
   line "/// `predicate` returns `true` for the built instance.",
   block "pub fn add_domain_rule(" ") where"
     [line "&mut self,",
      line "predicate: impl Fn(&T) -> bool + 'static,",
      line "message: impl Into<String>,"],
   line (indentation 1 ++ "T: 'static,"),
   block "\x7b" "\x7d"
     [line "let message = message.into();",
      block "self.rules.push(Box::new(move |entity: &T| \x7b" "\x7d));"
        [block "if predicate(entity) \x7b" "\x7d else \x7b"
          [line "Err(RuleViolation::new(message.clone()))"],
         line (indentation 1 ++ "Ok(())"),
         line "\x7d"]]]

/-- The rules of a builder and what can be done with them. -/
def rulesLayout : List Layout :=
  [line "type Rule<T> = Box<dyn Fn(&T) -> Result<(), RuleViolation>>;",
   blank,
   line "/// Post-construction checks run by a builder's `build` method.",
   braced "pub struct DomainRules<T>"
     [line "rules: Vec<Rule<T>>,"],
   blank,
   braced "impl<T> DomainRules<T>" <|
     [braced "pub fn new() -> Self"
       [line "DomainRules \x7b rules: Vec::new() \x7d"],
      blank] ++
     additionLayout ++
     [blank,
      line "/// Run every rule in registration order; the first failure wins.",
      braced "pub fn check(&self, entity: &T) -> Result<(), RuleViolation>"
        [braced "for rule in &self.rules"
          [line "rule(entity)?;"],
         line "Ok(())"],
      blank,
      braced "pub fn len(&self) -> usize"
        [line "self.rules.len()"],
      blank,
      braced "pub fn is_empty(&self) -> bool"
        [line "self.rules.is_empty()"]],
   blank,
   braced "impl<T> Default for DomainRules<T>"
     [braced "fn default() -> Self"
       [line "Self::new()"]]]

/-- The support module. -/
def supportLayout (banner : String) : List Layout :=
  generatedMark banner ++
    [blank,
     line "/// A deferred member value held by a builder until `build` runs.",
     line "pub type Producer<T> = Box<dyn FnOnce() -> T>;",
     blank] ++
    violationLayout ++ [blank] ++ rulesLayout

/-- The text of the support module. -/
def supportText (options : EmitOptions) : String :=
  render (supportLayout options.banner)

/-- The artifacts that every run hands out. -/
def supportArtifacts (options : EmitOptions) : List Artifact :=
  [⟨markerId, markerText options⟩, ⟨rulesId, supportText options⟩]

end BuilderForge

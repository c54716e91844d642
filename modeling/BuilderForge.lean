import BuilderForge.Emission.Capacity
import BuilderForge.Pipeline.Run
import BuilderForge.Proofs.Pipeline.Cancellation
import BuilderForge.Proofs.Pipeline.FromScratch
import BuilderForge.Proofs.Pipeline.Interruption
import BuilderForge.Proofs.Pipeline.Recomputation
import BuilderForge.Proofs.Pipeline.Replay
import BuilderForge.Rules
import BuilderForge.Sequence.Access
import BuilderForge.Sequence.Digest
import BuilderForge.Shape.Foreign
import BuilderForge.Proofs.Stage.Dropping
import BuilderForge.Proofs.Naming.Candidates
import BuilderForge.Proofs.Naming.Fewer
import BuilderForge.Proofs.Pipeline.Outright
import BuilderForge.Proofs.Pipeline.Census
import BuilderForge.Proofs.Pipeline.Without
import BuilderForge.Proofs.Pipeline.Partial
import BuilderForge.Proofs.Merge.Repetition
import BuilderForge.Proofs.Naming.Separation
import BuilderForge.Proofs.Naming.Precedence
import BuilderForge.Proofs.Pipeline.Locality
import BuilderForge.Proofs.Listing.Stability
import BuilderForge.Proofs.Stage.Answering
import BuilderForge.Proofs.Stage.Calls
import BuilderForge.Proofs.Stage.Serving
import BuilderForge.Proofs.Stage.Bookkeeping
import BuilderForge.Proofs.Stage.Soundness
import BuilderForge.Proofs.Stage.Reuse
import BuilderForge.Proofs.Text.Escaping
import BuilderForge.Proofs.Emission.Resolved
import BuilderForge.Proofs.Emission.Acceptance
import BuilderForge.Proofs.Writing.Lines
import BuilderForge.Proofs.Writing.Reading
import BuilderForge.Proofs.Writing.Nesting
import BuilderForge.Proofs.Stage.Succession
import BuilderForge.Proofs.Emission.Lines
import BuilderForge.Proofs.Emission.Outline
import BuilderForge.Proofs.Emission.Sections
import BuilderForge.Proofs.Emission.Agreement
import BuilderForge.Proofs.Emission.Legibility
import BuilderForge.Proofs.Emission.Nesting
import BuilderForge.Proofs.Spec.Canonical
import BuilderForge.Proofs.Merge.Absorption
import BuilderForge.Proofs.Provider.Shadowing
import BuilderForge.Proofs.Sequence.Permutations
import BuilderForge.Proofs.Pipeline.Safekeeping
import BuilderForge.Proofs.Naming.Spelling
import BuilderForge.Proofs.Spec.Comparison
import BuilderForge.Proofs.Text.Casing
import BuilderForge.Proofs.Writing.Balance
import BuilderForge.Proofs.Emission.Growth

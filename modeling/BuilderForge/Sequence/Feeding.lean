import BuilderForge.Diagnostic
import BuilderForge.Sequence.Digest
import BuilderForge.Spec

/-!
# What a hasher is fed

Caches find a value by its hash. To be hashed, a value feeds a hasher its
fields in their order, down to texts, flags, and places in an enumeration. A
sequence feeds it a single word, its content hash, however many elements it
has.

How a hasher mixes what it is fed is its own affair, and here it is whatever
function it may be. For a hasher that mixes single words as digests do, the
content hash of numbers is that of digests (`Hasher.contentHash_words`).
-/

namespace BuilderForge

/-- One thing that a hasher is fed. -/
inductive Morsel
  | text (content : String)
  | flag (value : Bool)
  /-- The place of a variant in its enumeration. -/
  | place (n : Nat)
  | word (value : UInt64)
  deriving DecidableEq

/-- A hasher makes one word of all that it was fed. -/
def Hasher : Type :=
  List Morsel → UInt64

/-- A type whose values can be hashed. -/
class Feeding (α : Type) where
  /-- What a value feeds a hasher, which is also the one that hashes the
  elements of its sequences. -/
  feed : Hasher → α → List Morsel

namespace Hasher

variable {α : Type} [Feeding α]

/-- The hash of a value. -/
def hash (hasher : Hasher) (a : α) : UInt64 :=
  hasher (Feeding.feed hasher a)

/-- The content hash of a sequence, folded as digests are. -/
def contentHash (hasher : Hasher) (items : List α) : UInt64 :=
  items.foldl (fun hash a => hash * positionFactor + hasher.hash a) 0

end Hasher

instance : Feeding UInt64 := ⟨fun _ x => [.word x]⟩

instance : Feeding String := ⟨fun _ text => [.text text]⟩

instance {α : Type} [Feeding α] : Feeding (List α) :=
  ⟨fun hasher items => [.word (hasher.contentHash items)]⟩

namespace Hasher

variable {hasher : Hasher}

/-- Where the hasher mixes a single word as digests do, the content hash of
elements that feed it their words is the one that digests have: -/
theorem contentHash_eq {α : Type} [Feeding α] [Digestible α]
    (hmix : ∀ x, hasher [.word x] = mix x)
    (hfeed : ∀ a : α, Feeding.feed hasher a = [.word (Digestible.word a)]) (items : List α) :
    hasher.contentHash items = BuilderForge.contentHash items := by
  have hhash : ∀ a : α, hasher.hash a = digest a := fun a => by rw [hash, hfeed, hmix, digest]
  simp only [contentHash, hhash]
  rfl

/-- that of numbers, -/
theorem contentHash_words (hmix : ∀ x, hasher [.word x] = mix x) (items : List UInt64) :
    hasher.contentHash items = BuilderForge.contentHash items :=
  contentHash_eq hmix (fun _ => rfl) items

/-- and that of sequences of numbers. -/
theorem contentHash_sequences (hmix : ∀ x, hasher [.word x] = mix x) (items : List (List UInt64)) :
    hasher.contentHash items = BuilderForge.contentHash items := by
  refine contentHash_eq hmix (fun inner => ?_) items
  have hfeed : Feeding.feed hasher inner = [.word (hasher.contentHash inner)] := rfl
  rw [hfeed, contentHash_words hmix]
  rfl

end Hasher

instance : Feeding Member where
  feed _ member :=
    [.text member.name, .text member.typeName, .flag member.isCollection,
      .flag member.hasPublicSetter, .place member.visibility.rank]

instance : Feeding BuilderKey where
  feed _ key := [.text key.scope, .text key.name]

instance : Feeding BuilderSpec where
  feed hasher spec :=
    [.text spec.name, .text spec.scope, .text spec.target] ++
      Feeding.feed hasher spec.normal ++ Feeding.feed hasher spec.collections

instance : Feeding Diagnostic where
  feed hasher diagnostic :=
    [.place diagnostic.code.rank, .place diagnostic.severity.rank, .text diagnostic.message] ++
      Feeding.feed hasher diagnostic.notes

end BuilderForge

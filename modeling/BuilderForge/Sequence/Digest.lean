/-!
# Digests of sequences

Caches look values up by digest. The digest of a sequence depends on what
its elements are and where they stand: the digests of the elements are
folded from the left, each step multiplying what was there by 31 and adding
the next. All arithmetic is on 64-bit words and wraps.

A value enters its digest as one word. A number is its own word, and a
sequence has its content hash for one, so sequences nest.
-/

namespace BuilderForge

/-- A type whose values enter a digest as one word. -/
class Digestible (α : Type) where
  /-- The word that stands for a value. -/
  word : α → UInt64

/-- The odd factor that spreads a word over all its bits. -/
def spread : UInt64 := 0xf1357aea2e62a9c5

/-- Turns a word to the left by 26 places. -/
def rotate (x : UInt64) : UInt64 :=
  (x <<< 26) ||| (x >>> 38)

/-- The digest of one word: an odd multiple, turned. -/
def mix (x : UInt64) : UInt64 :=
  rotate (x * spread)

variable {α : Type} [Digestible α]

/-- The digest of a value. -/
def digest (a : α) : UInt64 :=
  mix (Digestible.word a)

/-- The factor between neighbouring positions of a sequence. -/
def positionFactor : UInt64 := 31

/-- One step of the fold: what was there moves up one position. -/
def addToHash (hash : UInt64) (a : α) : UInt64 :=
  hash * positionFactor + digest a

/-- The hash of a sequence by content and position; zero if it is empty. -/
def contentHash (items : List α) : UInt64 :=
  items.foldl addToHash 0

instance : Digestible UInt64 := ⟨id⟩

instance : Digestible (List α) := ⟨contentHash⟩

@[simp]
theorem contentHash_nil : contentHash ([] : List α) = 0 := rfl

/-- An element at the end adds its digest to the hash moved up by one. -/
@[simp]
theorem contentHash_concat (items : List α) (a : α) :
    contentHash (items ++ [a]) = contentHash items * positionFactor + digest a := by
  simp [contentHash, addToHash]

end BuilderForge

import BuilderForge.Proofs.Pipeline.Outright
import BuilderForge.Proofs.Spec.Canonical
import BuilderForge.Sequence.Feeding

/-!
# Values in order

Members, keys, diagnostics, specifications, and sequences of such values to
any depth (`ValueKind`) are compared field by field and element by element. A
sequence comes first if it breaks off first, or if its element does where the
two first differ (`compare_eq_lt_iff`).

Only equal values are level in this order (`SortsCanonically`). That is what
the caches rest on: a list of specifications has one sorted form, in whatever
order they were found, and so the fragments of a builder are one key of the
merge's memory (`values_sort_canonically`).
-/

namespace BuilderForge

open Std

/-! ## Sequences -/

section Sequences

variable {α : Type} [Ord α]

/-- The first of two sequences comes first: the second goes on where it ends,
or its element comes first where they begin to differ. -/
def ComesFirst (first second : List α) : Prop :=
  (∃ a rest, second = first ++ a :: rest) ∨
    ∃ common a b rest more, first = common ++ a :: rest ∧ second = common ++ b :: more ∧
      compare a b = .lt

/-- One more element in front of both makes no difference. -/
theorem comesFirst_cons_self [ReflOrd α] (a : α) (first second : List α) :
    ComesFirst (a :: first) (a :: second) ↔ ComesFirst first second := by
  constructor
  · rintro (⟨b, rest, h⟩ | ⟨common, b, c, rest, more, hfirst, hsecond, hlt⟩)
    · exact .inl ⟨b, rest, (List.cons.inj h).2⟩
    · cases common with
      | nil =>
        -- an element does not come before itself
        obtain ⟨rfl, -⟩ := List.cons.inj hfirst
        obtain ⟨rfl, -⟩ := List.cons.inj hsecond
        rw [ReflOrd.compare_self] at hlt
        cases hlt
      | cons d common =>
        exact .inr ⟨common, b, c, rest, more, (List.cons.inj hfirst).2, (List.cons.inj hsecond).2,
          hlt⟩
  · rintro (⟨b, rest, rfl⟩ | ⟨common, b, c, rest, more, rfl, rfl, hlt⟩)
    · exact .inl ⟨b, rest, rfl⟩
    · exact .inr ⟨a :: common, b, c, rest, more, rfl, rfl, hlt⟩

/-- Sequences that begin with different elements are ordered by these. -/
theorem comesFirst_cons_cons_of_ne {a b : α} (hne : a ≠ b) (first second : List α) :
    ComesFirst (a :: first) (b :: second) ↔ compare a b = .lt := by
  constructor
  · rintro (⟨c, rest, h⟩ | ⟨common, c, d, rest, more, hfirst, hsecond, hlt⟩)
    · exact absurd (List.cons.inj h).1.symm hne
    · cases common with
      | nil =>
        obtain ⟨rfl, -⟩ := List.cons.inj hfirst
        obtain ⟨rfl, -⟩ := List.cons.inj hsecond
        exact hlt
      | cons e common =>
        exact absurd ((List.cons.inj hfirst).1.trans (List.cons.inj hsecond).1.symm) hne
  · exact fun hlt => .inr ⟨[], a, b, first, second, rfl, rfl, hlt⟩

/-- No sequence comes before the empty one. -/
theorem not_comesFirst_nil (first : List α) : ¬ComesFirst first [] := by
  rintro (⟨a, rest, h⟩ | ⟨common, a, b, rest, more, -, h, -⟩)
  · simp at h
  · simp at h

/-- **Sequences are ordered as words are.** -/
theorem compare_eq_lt_iff [LawfulEqOrd α] (first second : List α) :
    compare first second = .lt ↔ ComesFirst first second := by
  induction first generalizing second with
  | nil =>
    cases second with
    | nil => exact iff_of_false (by simp) (not_comesFirst_nil [])
    | cons b second => exact iff_of_true rfl (.inl ⟨b, second, rfl⟩)
  | cons a first ih =>
    cases second with
    | nil => exact iff_of_false (by simp) (not_comesFirst_nil _)
    | cons b second =>
      rw [List.compare_cons_cons]
      by_cases hab : a = b
      · rw [hab, ReflOrd.compare_self, Ordering.eq_then, ih, comesFirst_cons_self]
      · rw [comesFirst_cons_cons_of_ne hab]
        cases hcmp : compare a b with
        | lt => simp
        | eq => exact absurd (LawfulEqOrd.eq_of_compare hcmp) hab
        | gt => simp

end Sequences

/-! ## Kinds of values -/

/-- The kinds of values that are compared and hashed. -/
inductive ValueKind
  | member
  | key
  | diagnostic
  | spec
  | sequence (of : ValueKind)

namespace ValueKind

/-- The values of a kind. -/
def Value : ValueKind → Type
  | member => Member
  | key => BuilderKey
  | diagnostic => Diagnostic
  | spec => BuilderSpec
  | sequence kind => List kind.Value

instance ord : (kind : ValueKind) → Ord kind.Value
  | member => inferInstanceAs (Ord Member)
  | key => inferInstanceAs (Ord BuilderKey)
  | diagnostic => inferInstanceAs (Ord Diagnostic)
  | spec => inferInstanceAs (Ord BuilderSpec)
  | sequence kind =>
    have := ord kind
    inferInstanceAs (Ord (List kind.Value))

instance feeding : (kind : ValueKind) → Feeding kind.Value
  | member => inferInstanceAs (Feeding Member)
  | key => inferInstanceAs (Feeding BuilderKey)
  | diagnostic => inferInstanceAs (Feeding Diagnostic)
  | spec => inferInstanceAs (Feeding BuilderSpec)
  | sequence kind =>
    have := feeding kind
    inferInstanceAs (Feeding (List kind.Value))

instance transOrd : (kind : ValueKind) → TransOrd kind.Value
  | member => inferInstanceAs (TransOrd Member)
  | key => inferInstanceAs (TransOrd BuilderKey)
  | diagnostic => inferInstanceAs (TransOrd Diagnostic)
  | spec => inferInstanceAs (TransOrd BuilderSpec)
  | sequence kind =>
    have := transOrd kind
    inferInstanceAs (TransOrd (List kind.Value))

instance lawfulEqOrd : (kind : ValueKind) → LawfulEqOrd kind.Value
  | member => inferInstanceAs (LawfulEqOrd Member)
  | key => inferInstanceAs (LawfulEqOrd BuilderKey)
  | diagnostic => inferInstanceAs (LawfulEqOrd Diagnostic)
  | spec => inferInstanceAs (LawfulEqOrd BuilderSpec)
  | sequence kind =>
    have := lawfulEqOrd kind
    inferInstanceAs (LawfulEqOrd (List kind.Value))

end ValueKind

/-! ## The order of values -/

/-- **A type whose values sort canonically**: only equal values are level, and
so no two sorted lists have the same values. -/
structure SortsCanonically (α : Type) [Ord α] [Feeding α] : Prop where
  level_iff (a b : α) : compare a b = .eq ↔ a = b
  swap (a b : α) : compare b a = (compare a b).swap
  antisymm (a b : α) : (compare a b).isLE → (compare b a).isLE → a = b
  trans (a b c : α) : (compare a b).isLE → (compare b c).isLE → (compare a c).isLE
  /-- Sequences are ordered as words are. -/
  sequences (first second : List α) : compare first second = .lt ↔ ComesFirst first second
  /-- Whatever the hasher does, values that are level have one hash, -/
  hash_eq (hasher : Hasher) (a b : α) : compare a b = .eq → hasher.hash a = hasher.hash b
  /-- and sequences that are level have one content hash. -/
  contentHash_eq (hasher : Hasher) (first second : List α) :
    compare first second = .eq → hasher.contentHash first = hasher.contentHash second
  sorted_iff (values others : List α) : ascending values = ascending others ↔ values.Perm others

/-- **An order that tells all values apart sorts them canonically.** -/
theorem SortsCanonically.of_lawful (α : Type) [Ord α] [TransOrd α] [LawfulEqOrd α] [Feeding α] :
    SortsCanonically α where
  level_iff _ _ := LawfulEqOrd.compare_eq_iff_eq
  swap _ _ := OrientedOrd.eq_swap
  antisymm _ _ hab hba := LawfulEqOrd.eq_of_compare (OrientedCmp.isLE_antisymm hab hba)
  trans _ _ _ hab hbc := TransOrd.isLE_trans hab hbc
  sequences := compare_eq_lt_iff
  hash_eq hasher _ _ h := congrArg hasher.hash (LawfulEqOrd.eq_of_compare h)
  contentHash_eq hasher _ _ h := congrArg hasher.contentHash (LawfulEqOrd.eq_of_compare h)
  sorted_iff values others := by
    refine ⟨fun h => ?_, ascending_congr⟩
    have hothers : (ascending values).Perm others := h ▸ ascendingBy_perm id others
    exact (ascendingBy_perm id values).symm.trans hothers

/-- **Which field decides**: the first in which two values differ. -/
structure ComparedByFields : Prop where
  member (a b : Member) : compare a b =
    (compare a.name b.name).then ((compare a.typeName b.typeName).then
      ((compare a.isCollection b.isCollection).then
        ((compare a.hasPublicSetter b.hasPublicSetter).then
          (compare a.visibility b.visibility))))
  key (a b : BuilderKey) : compare a b = (compare a.scope b.scope).then (compare a.name b.name)
  diagnostic (a b : Diagnostic) : compare a b =
    (compare a.code b.code).then ((compare a.severity b.severity).then
      ((compare a.message b.message).then (compare a.notes b.notes)))
  spec (a b : BuilderSpec) : compare a b =
    (compare a.name b.name).then ((compare a.scope b.scope).then
      ((compare a.target b.target).then
        ((compare a.normal b.normal).then (compare a.collections b.collections))))

theorem comparedByFields : ComparedByFields where
  member := Member.compare_eq
  key _ _ := rfl
  diagnostic _ _ := rfl
  spec _ _ := rfl

/-- **The order of discovery reaches no cache**: values of every kind sort
canonically, by their fields, and the jobs of the merge, which carry the
sorted fragments of each builder as the key of its memory, are the same for
specifications in any order. -/
theorem values_sort_canonically :
    (∀ kind : ValueKind, SortsCanonically kind.Value) ∧ ComparedByFields ∧
      ∀ specs others : List BuilderSpec, specs.Perm others →
        ascending specs = ascending others ∧ mergeJobs specs = mergeJobs others := by
  refine ⟨fun kind => .of_lawful kind.Value, comparedByFields, fun specs others h => ?_⟩
  exact ⟨ascending_congr h, mergeJobs_congr h⟩

/-- Two specifications that differ in nothing but where their only collection
can be used: they are still told apart, and found in either order they are one
key of the merge's memory. -/
theorem values_sort_canonically_of_tied :
    let wide := BuilderSpec.ofMembers "Builder" "A" "app::T" [⟨"x", "f32", .collection, .anywhere⟩]
    let narrow :=
      BuilderSpec.ofMembers "Builder" "A" "app::T" [⟨"x", "f32", .collection, .inModule⟩]
    wide ≠ narrow ∧ ascending [wide, narrow] = ascending [narrow, wide] ∧
      mergeJobs [wide, narrow] = mergeJobs [narrow, wide] := by
  intro wide narrow
  have hne : wide ≠ narrow := by
    intro h
    have hmem : ⟨"x", "f32", .collection, .anywhere⟩ ∈ wide.members :=
      BuilderSpec.mem_members_ofMembers.2 List.mem_cons_self
    rw [h, BuilderSpec.mem_members_ofMembers] at hmem
    revert hmem
    decide
  exact ⟨hne, values_sort_canonically.2.2 [wide, narrow] [narrow, wide] (.swap _ _ _)⟩

end BuilderForge

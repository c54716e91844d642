import BuilderForge.Merge
import BuilderForge.Proofs.Listing.Keys
import BuilderForge.Proofs.Spec.Canonical

/-!
# What a merge unites

The fragments of a builder are merged under its key. Of the targets that they
name the least is chosen and the others are listed
(`targets_mergeFragments`). The fragments that name it hand in their members,
and of those with one name the first counts (`members_mergeFragments_perm`);
the specification then parts and sorts what was handed in, which changes
neither. So each member of a merged builder can be traced back to the least
fragment that has its name among those that name the target
(`exists_origin`), and each name that these fragments have is there once.
-/

namespace BuilderForge

open Std

/-! ## The merge, field by field -/

/-- A merge takes the key from the first fragment, and the targets from all. -/
theorem mergeFragments_cons (first : BuilderSpec) (rest : List BuilderSpec) :
    ∃ target others,
      distinctAscending ((first :: rest).map BuilderSpec.target) = target :: others ∧
      mergeFragments (first :: rest) =
        ⟨.ofMembers first.name first.scope target (unitedMembers target (first :: rest)),
          others⟩ := by
  have hfirst : first.target ∈ distinctAscending ((first :: rest).map BuilderSpec.target) := by
    simp
  unfold mergeFragments
  generalize distinctAscending ((first :: rest).map BuilderSpec.target) = targets at hfirst ⊢
  cases targets with
  | nil => exact absurd hfirst List.not_mem_nil
  | cons target others => exact ⟨target, others, rfl, rfl⟩

/-- **Merging keeps the builder**: the merged specification has the key of
the first fragment. -/
theorem key_mergeFragments (first : BuilderSpec) (rest : List BuilderSpec) :
    (mergeFragments (first :: rest)).spec.key = first.key := by
  obtain ⟨target, others, -, hmerge⟩ := mergeFragments_cons first rest
  rw [hmerge]
  rfl

variable {fragments : List BuilderSpec}

/-- **The targets that are named** are the chosen one and, behind it, those
that lose. -/
theorem targets_mergeFragments (hne : fragments ≠ []) :
    distinctAscending (fragments.map BuilderSpec.target) =
      (mergeFragments fragments).spec.target :: (mergeFragments fragments).conflictingTargets := by
  obtain ⟨first, rest, rfl⟩ := List.exists_cons_of_ne_nil hne
  obtain ⟨target, others, htargets, hmerge⟩ := mergeFragments_cons first rest
  rw [htargets, hmerge]
  rfl

/-- The members are those that are united, rearranged. -/
theorem members_mergeFragments_perm (fragments : List BuilderSpec) :
    (mergeFragments fragments).spec.members.Perm
      (unitedMembers (mergeFragments fragments).spec.target fragments) := by
  cases fragments with
  | nil => exact BuilderSpec.members_ofMembers_perm
  | cons first rest =>
    obtain ⟨target, others, -, hmerge⟩ := mergeFragments_cons first rest
    rw [hmerge]
    exact BuilderSpec.members_ofMembers_perm

/-! ## Targets -/

section Targets

variable {target : String}

/-- A target is named by a fragment. -/
theorem mem_targets : target ∈ distinctAscending (fragments.map BuilderSpec.target) ↔
    ∃ fragment ∈ fragments, fragment.target = target := by
  rw [mem_distinctAscending, List.mem_map]

/-- The chosen target is one that is named, -/
theorem exists_target_mergeFragments (hne : fragments ≠ []) :
    ∃ fragment ∈ fragments, fragment.target = (mergeFragments fragments).spec.target :=
  mem_targets.1 (targets_mergeFragments hne ▸ List.mem_cons_self)

/-- **and no smaller one is.** -/
theorem target_mergeFragments_isLE {fragment : BuilderSpec} (hmem : fragment ∈ fragments) :
    (compare (mergeFragments fragments).spec.target fragment.target).isLE := by
  have htargets := targets_mergeFragments (List.ne_nil_of_mem hmem)
  have hascends := ascendsBy_distinctAscending (fragments.map BuilderSpec.target)
  have hnamed := mem_targets.2 ⟨fragment, hmem, rfl⟩
  rw [htargets] at hascends hnamed
  rcases List.mem_cons.1 hnamed with heq | hother
  · rw [heq]
    exact ReflCmp.isLE_rfl
  · have hlt : compare (mergeFragments fragments).spec.target fragment.target = .lt :=
      (List.pairwise_cons.1 hascends).1 _ hother
    rw [hlt]
    rfl

/-- The targets that lose are the other ones that are named, -/
theorem mem_conflictingTargets : target ∈ (mergeFragments fragments).conflictingTargets ↔
    target ≠ (mergeFragments fragments).spec.target ∧
      ∃ fragment ∈ fragments, fragment.target = target := by
  cases fragments with
  | nil => simp [mergeFragments]
  | cons first rest =>
    have htargets := targets_mergeFragments (List.cons_ne_nil first rest)
    have hnodup := (ascendsBy_distinctAscending ((first :: rest).map BuilderSpec.target)).nodup
    rw [htargets, List.nodup_cons] at hnodup
    rw [← mem_targets, htargets, List.mem_cons]
    constructor
    · intro hmem
      exact ⟨fun heq => hnodup.1 (heq ▸ hmem), .inr hmem⟩
    · rintro ⟨hne, heq | hmem⟩
      · exact absurd heq hne
      · exact hmem

/-- and they ascend. -/
theorem ascendsBy_conflictingTargets (fragments : List BuilderSpec) :
    AscendsBy id (mergeFragments fragments).conflictingTargets := by
  cases fragments with
  | nil => exact .nil
  | cons first rest =>
    have hascends := ascendsBy_distinctAscending ((first :: rest).map BuilderSpec.target)
    rw [targets_mergeFragments (List.cons_ne_nil first rest)] at hascends
    exact (List.pairwise_cons.1 hascends).2

/-- **No target loses exactly if all fragments name the same.** -/
theorem conflictingTargets_eq_nil_iff : (mergeFragments fragments).conflictingTargets = [] ↔
    ∀ fragment ∈ fragments, ∀ other ∈ fragments, fragment.target = other.target := by
  constructor
  · intro hnil
    have hchosen : ∀ fragment ∈ fragments,
        fragment.target = (mergeFragments fragments).spec.target := by
      intro fragment hmem
      by_contra hne
      have hloses := mem_conflictingTargets.2 ⟨hne, fragment, hmem, rfl⟩
      rw [hnil] at hloses
      cases hloses
    intro fragment hmem other hother
    rw [hchosen fragment hmem, hchosen other hother]
  · intro hsame
    refine List.eq_nil_iff_forall_not_mem.2 fun target hloses => ?_
    obtain ⟨hne, fragment, hmem, rfl⟩ := mem_conflictingTargets.1 hloses
    obtain ⟨other, hother, htarget⟩ := exists_target_mergeFragments (List.ne_nil_of_mem hmem)
    exact hne (hsame fragment hmem other hother ▸ htarget)

/-- **A merged builder has conflicts** exactly if two of its fragments name
different targets. -/
theorem hasConflicts_mergeFragments (fragments : List BuilderSpec) :
    (mergeFragments fragments).hasConflicts ↔
      ∃ spec ∈ fragments, ∃ other ∈ fragments, spec.target ≠ other.target := by
  rw [MergedBuilder.hasConflicts, Bool.not_eq_true', ← Bool.not_eq_true, List.isEmpty_iff,
    conflictingTargets_eq_nil_iff]
  simp only [not_forall, exists_prop]

end Targets

/-! ## Members -/

/-- **Where a member of a merged builder comes from**: a fragment that names
the target, in which it is the first of its name, collections last; of the
fragments that name the target and have a member of that name, none is
smaller. -/
structure Origin (fragments : List BuilderSpec) (target : String) (member : Member)
    (fragment : BuilderSpec) : Prop where
  mem : fragment ∈ fragments
  named : fragment.target = target
  first : (fragment.normal ++ fragment.collections).find? (fun other => other.name = member.name) =
    some member
  least : ∀ other ∈ fragments, other.target = target →
    member.name ∈ other.members.map Member.name → (compare fragment other).isLE

/-- No two members of a merged builder share a name. -/
theorem nodup_names_mergeFragments (fragments : List BuilderSpec) :
    ((mergeFragments fragments).spec.members.map Member.name).Nodup := by
  rw [((members_mergeFragments_perm fragments).map Member.name).nodup_iff]
  exact nodup_keys_firstBy Member.name _

/-- The names are those that the fragments have which name the target. -/
theorem mem_names_mergeFragments {name : String} :
    name ∈ (mergeFragments fragments).spec.members.map Member.name ↔
      ∃ fragment ∈ fragments, fragment.target = (mergeFragments fragments).spec.target ∧
        name ∈ fragment.members.map Member.name := by
  have hunited := ((members_mergeFragments_perm fragments).map Member.name).mem_iff (a := name)
  rw [hunited, List.mem_map, unitedMembers, exists_mem_firstBy_iff]
  simp only [List.mem_flatMap, List.mem_filter, decide_eq_true_eq, List.mem_map]
  constructor
  · rintro ⟨member, ⟨fragment, ⟨hmem, htarget⟩, hmember⟩, hname⟩
    exact ⟨fragment, hmem, htarget, member, hmember, hname⟩
  · rintro ⟨fragment, hmem, htarget, member, hmember, hname⟩
    exact ⟨member, ⟨fragment, ⟨hmem, htarget⟩, hmember⟩, hname⟩

/-- **Every member has its origin.** The fragments before it do not have the
name, and those behind it are not smaller. -/
theorem exists_origin (hsorted : fragments.Pairwise fun a b => (compare a b).isLE)
    {target : String} {member : Member} (h : member ∈ unitedMembers target fragments) :
    ∃ fragment, Origin fragments target member fragment := by
  rw [unitedMembers, mem_firstBy_iff, List.find?_flatMap, List.findSome?_eq_some_iff] at h
  obtain ⟨before, fragment, after, hsplit, hfirst, hbefore⟩ := h
  have hmem : ∀ other, other ∈ before ++ fragment :: after ↔
      other ∈ fragments ∧ other.target = target := fun other => by
    rw [← hsplit, List.mem_filter, decide_eq_true_eq]
  have hascends : (before ++ fragment :: after).Pairwise fun a b => (compare a b).isLE :=
    hsplit ▸ hsorted.filter _
  obtain ⟨hfragment, htarget⟩ := (hmem fragment).1 (by simp)
  refine ⟨fragment, hfragment, htarget, hfirst, fun other hother htarget' hname => ?_⟩
  obtain ⟨found, hfound, hname⟩ := List.mem_map.1 hname
  rcases List.mem_append.1 ((hmem other).2 ⟨hother, htarget'⟩) with hearlier | hlater
  · have hnone := List.find?_eq_none.1 (hbefore other hearlier) found hfound
    exact absurd hname (by simpa using hnone)
  · rcases List.mem_cons.1 hlater with rfl | hlater
    · exact ReflCmp.isLE_rfl
    · exact (List.pairwise_cons.1 (List.pairwise_append.1 hascends).2.1).1 other hlater

/-- **A merged builder unites its fragments.** -/
structure MergedBuilder.Unites (merged : MergedBuilder) (key : BuilderKey)
    (fragments : List BuilderSpec) : Prop where
  key : merged.spec.key = key
  /-- The target is the least one that is named. -/
  target_named : ∃ fragment ∈ fragments, fragment.target = merged.spec.target
  target_least : ∀ fragment ∈ fragments, (compare merged.spec.target fragment.target).isLE
  /-- No name is there twice, be it as a collection or not. -/
  names_once : ((merged.spec.normal ++ merged.spec.collections).map Member.name).Nodup
  /-- The names are those that the fragments have which name the target, -/
  names_united : ∀ name, name ∈ merged.spec.members.map Member.name ↔
    ∃ fragment ∈ fragments, fragment.target = merged.spec.target ∧
      name ∈ fragment.members.map Member.name
  /-- and the first of these fragments that has a name says what it means. -/
  origins : ∀ member ∈ merged.spec.members,
    ∃ fragment, Origin fragments merged.spec.target member fragment
  /-- The targets that lose are the others, each once, ascending. -/
  others : ∀ target, target ∈ merged.conflictingTargets ↔
    target ≠ merged.spec.target ∧ ∃ fragment ∈ fragments, fragment.target = target
  others_ascend : AscendsBy id merged.conflictingTargets
  /-- There are none exactly if the fragments agree. -/
  agreed : merged.conflictingTargets = [] ↔
    ∀ fragment ∈ fragments, ∀ other ∈ fragments, fragment.target = other.target

/-- **Merging unites the fragments of a builder**, if there are any and they
are sorted. -/
theorem fragments_united (key : BuilderKey) (fragments : List BuilderSpec) (hne : fragments ≠ [])
    (hsorted : fragments.Pairwise fun a b => (compare a b).isLE)
    (hkey : ∀ fragment ∈ fragments, fragment.key = key) :
    (mergeFragments fragments).Unites key fragments := by
  have hmembers := members_mergeFragments_perm fragments
  exact
    { key := by
        obtain ⟨first, rest, rfl⟩ := List.exists_cons_of_ne_nil hne
        rw [key_mergeFragments, hkey first List.mem_cons_self]
      target_named := exists_target_mergeFragments hne
      target_least := fun _ => target_mergeFragments_isLE
      names_once := nodup_names_mergeFragments fragments
      names_united := fun _ => mem_names_mergeFragments
      origins := fun _ hmember => exists_origin hsorted (hmembers.mem_iff.1 hmember)
      others := fun _ => mem_conflictingTargets
      others_ascend := ascendsBy_conflictingTargets fragments
      agreed := conflictingTargets_eq_nil_iff }

/-- A fragment of one builder. -/
def orderFragment (target : String) (normal collections : List Member)
    (hsettable : ∀ m ∈ normal, m.kind = .settable)
    (hcollection : ∀ m ∈ collections, m.kind = .collection)
    (hnormal : normal.Pairwise fun a b => (compare a b).isLE)
    (hcollections : collections.Pairwise fun a b => (compare a b).isLE) : BuilderSpec :=
  ⟨"OrderBuilder", "app", target, normal, collections, hsettable, hnormal, hcollection,
    hcollections⟩

/-- Fragments that disagree: on the target, on the type of the identifier
within one fragment, and on whether the tags are a collection. -/
def scattered : List BuilderSpec :=
  [orderFragment "app::Order" [] [⟨"tags", "Vec<String>", .collection, .anywhere⟩]
      (by decide) (by decide) (by decide +kernel) (by decide +kernel),
    orderFragment "app::Order" [⟨"id", "u32", .settable, .anywhere⟩,
        ⟨"id", "u64", .settable, .anywhere⟩, ⟨"tags", "Tags", .settable, .anywhere⟩] []
      (by decide) (by decide) (by decide +kernel) (by decide +kernel),
    orderFragment "app::Receipt" [⟨"total", "u64", .settable, .anywhere⟩] []
      (by decide) (by decide) (by decide +kernel) (by decide +kernel)]

/-- The lesser target is chosen; the identifier has the type that is sorted
first, the tags are a collection, for the least fragment says so, and the
total is lost. -/
theorem fragments_united_of_scattered :
    scattered ≠ [] ∧ (scattered.Pairwise fun a b => (compare a b).isLE) ∧
      (∀ fragment ∈ scattered, fragment.key = ⟨"app", "OrderBuilder"⟩) ∧
      (mergeFragments scattered).Unites ⟨"app", "OrderBuilder"⟩ scattered ∧
      unitedMembers "app::Order" scattered = [⟨"tags", "Vec<String>", .collection, .anywhere⟩,
        ⟨"id", "u32", .settable, .anywhere⟩] := by
  have hne : scattered ≠ [] := List.cons_ne_nil _ _
  have hsorted : scattered.Pairwise fun a b => (compare a b).isLE := by decide +kernel
  have hkey : ∀ fragment ∈ scattered, fragment.key = ⟨"app", "OrderBuilder"⟩ := by decide
  exact ⟨hne, hsorted, hkey, fragments_united _ scattered hne hsorted hkey, by decide⟩

end BuilderForge

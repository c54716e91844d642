import BuilderForge.Proofs.Listing.Keys
import BuilderForge.Proofs.Naming.Candidates

/-!
# Naming fewer builders

Identifiers are given in the order of the keys, so the builders before a key
are named as if they were alone (`filter_assignments`), and a builder has no
effect on those before it (`id?_filter_of_lt`). It takes one text away from those
after it, and this changes some identifier exactly if another builder passed
over that text (`id?_filter_eq_iff`). Whichever builders are left out, those
that stay get no later candidates than before, and in particular keep their
bases (`id?_base_of_subset`).
-/

namespace BuilderForge

open Std

namespace Naming

/-- What is taken after builders got their identifiers. -/
def takenAfter (taken : List (String × Holder)) : List BuilderKey → List (String × Holder)
  | [] => taken
  | key :: rest => takenAfter (((assign taken key).id.text, .builder key) :: taken) rest

/-- Those that come later are named by what is then taken. -/
theorem assignAll_append (taken : List (String × Holder)) (keys later : List BuilderKey) :
    assignAll taken (keys ++ later) =
      assignAll taken keys ++ assignAll (takenAfter taken keys) later := by
  induction keys generalizing taken with
  | nil => rfl
  | cons key rest ih =>
    rw [List.cons_append, assignAll, ih, assignAll, List.cons_append, takenAfter]

/-- Only builders that are listed are assigned something. -/
theorem key_mem_of_mem_assignAll {taken : List (String × Holder)} {keys : List BuilderKey}
    {assignment : Assignment} (h : assignment ∈ assignAll taken keys) : assignment.key ∈ keys := by
  have hkey := List.mem_map_of_mem (f := Assignment.key) h
  rwa [map_key_assignAll] at hkey

/-- What was taken before stays taken. -/
theorem mem_takenAfter_of_mem {taken : List (String × Holder)} {text : String}
    (h : text ∈ taken.map Prod.fst) (keys : List BuilderKey) :
    text ∈ (takenAfter taken keys).map Prod.fst := by
  induction keys generalizing taken with
  | nil => exact h
  | cons key rest ih => exact ih (List.mem_cons_of_mem _ h)

/-- What a builder passed over is taken in the end. -/
theorem mem_takenAfter_of_passesOver {taken : List (String × Holder)} {keys : List BuilderKey}
    {text : String} {assignment : Assignment} (h : assignment ∈ assignAll taken keys)
    (hpass : assignment.PassesOver text) : text ∈ (takenAfter taken keys).map Prod.fst := by
  induction keys generalizing taken with
  | nil => cases h
  | cons key rest ih =>
    rcases List.mem_cons.1 h with rfl | h
    · exact mem_takenAfter_of_mem (List.mem_cons_of_mem _ (mem_of_passesOver hpass)) rest
    · exact ih h

end Naming

namespace Resolution

open Naming

/-! ## Looking identifiers up -/

/-- The first assignment for a key counts. -/
theorem id?_cons (assignment : Assignment) (rest : List Assignment) (key : BuilderKey) :
    (⟨assignment :: rest⟩ : Resolution).id? key =
      if assignment.key = key then some assignment.id else (⟨rest⟩ : Resolution).id? key := by
  by_cases h : assignment.key = key <;> simp [id?, h]

/-- An identifier is found in the first part or in the second. -/
theorem id?_append (first second : List Assignment) (key : BuilderKey) :
    (⟨first ++ second⟩ : Resolution).id? key =
      ((⟨first⟩ : Resolution).id? key).or ((⟨second⟩ : Resolution).id? key) := by
  rw [id?, List.find?_append]
  cases h : first.find? (·.key = key) <;> simp [id?, h]

/-- A builder that is not named has no identifier. -/
theorem id?_assignAll_eq_none_iff {taken : List (String × Holder)} {keys : List BuilderKey}
    {key : BuilderKey} : (⟨assignAll taken keys⟩ : Resolution).id? key = none ↔ key ∉ keys := by
  rw [id?, Option.map_eq_none_iff, find?_key_eq_none_iff, map_key_assignAll]

/-- **A builder has an identifier exactly if it is listed.** -/
theorem exists_id?_iff {keys : List BuilderKey} {key : BuilderKey} :
    (∃ id, (ofKeys keys).id? key = some id) ↔ key ∈ keys := by
  rw [← Option.isSome_iff_exists, ← Option.ne_none_iff_isSome, Ne, ofKeys,
    id?_assignAll_eq_none_iff, not_not, mem_distinctAscending]

/-- So a builder that has one is named. -/
theorem mem_of_id? {keys : List BuilderKey} {key : BuilderKey} {id : ArtifactId}
    (h : (ofKeys keys).id? key = some id) : key ∈ keys :=
  exists_id?_iff.1 ⟨id, h⟩

/-- Every assignment of a run is found by its builder. -/
theorem id?_of_mem_assignments {keys : List BuilderKey} {assignment : Assignment}
    (h : assignment ∈ (ofKeys keys).assignments) :
    (ofKeys keys).id? assignment.key = some assignment.id := by
  have hnodup : ((ofKeys keys).assignments.map Assignment.key).Nodup := by
    rw [ofKeys, map_key_assignAll]
    exact (ascendsBy_distinctAscending keys).nodup
  rw [id?, (find?_key_eq_some_iff hnodup).2 ⟨h, rfl⟩]
  rfl

/-! ## The builders before a key -/

section Before

variable {keys : List BuilderKey} {key other : BuilderKey}

/-- **The builders before a key are named as if they were alone.** -/
theorem filter_assignments (keys : List BuilderKey) (key : BuilderKey) :
    (ofKeys keys).assignments.filter (fun assignment => compare assignment.key key = .lt) =
      (ofKeys (keys.filter (compare · key = .lt))).assignments := by
  have hsplit := (ascendsBy_distinctAscending keys).eq_filter_append_filter key
  have hbefore : ∀ assignment ∈ assignAll reserved
      ((distinctAscending keys).filter (compare · key = .lt)),
      decide (compare assignment.key key = .lt) = true := fun assignment hmem =>
    (List.mem_filter.1 (key_mem_of_mem_assignAll hmem)).2
  have hbehind : ∀ assignment ∈ assignAll
      (takenAfter reserved ((distinctAscending keys).filter (compare · key = .lt)))
      ((distinctAscending keys).filter (compare · key ≠ .lt)),
      ¬decide (compare assignment.key key = .lt) = true := fun assignment hmem => by
    simpa using (List.mem_filter.1 (key_mem_of_mem_assignAll hmem)).2
  rw [ofKeys, hsplit, assignAll_append, List.filter_append, List.filter_eq_self.2 hbefore,
    List.filter_eq_nil_iff.2 hbehind, List.append_nil, ofKeys, distinctAscending_filter]

/-- So what is assigned to a builder before the key does not depend on those
behind it, -/
theorem filter_key_assignments (h : compare other key = .lt) :
    (ofKeys (keys.filter (compare · key = .lt))).assignments.filter (·.key = other) =
      (ofKeys keys).assignments.filter (·.key = other) := by
  rw [← filter_assignments, List.filter_filter]
  refine List.filter_congr fun assignment _ => ?_
  by_cases hkey : assignment.key = other
  · simp [hkey, h]
  · simp [hkey]

/-- and neither does its identifier. -/
theorem id?_filter_lt (h : compare other key = .lt) :
    (ofKeys (keys.filter (compare · key = .lt))).id? other = (ofKeys keys).id? other := by
  rw [id?, id?, ← List.head?_filter, ← List.head?_filter, filter_key_assignments h]

end Before

/-! ## One builder fewer -/

/-- **A text that is given back makes a difference to builders** exactly if
one of them passed over it. -/
theorem id?_assignAll_eq_iff (taken fewer : List (String × Holder)) {keys : List BuilderKey}
    {text : String} (hkeys : keys.Nodup) (hmem : text ∈ taken.map Prod.fst)
    (hnot : text ∉ fewer.map Prod.fst)
    (h : ∀ other, other ≠ text → (other ∈ fewer.map Prod.fst ↔ other ∈ taken.map Prod.fst)) :
    (∀ key, (⟨assignAll fewer keys⟩ : Resolution).id? key =
        (⟨assignAll taken keys⟩ : Resolution).id? key) ↔
      ∀ assignment ∈ assignAll taken keys, ¬assignment.PassesOver text := by
  induction keys generalizing taken fewer with
  | nil => simp [assignAll]
  | cons first rest ih =>
    obtain ⟨hfirst, hrest⟩ := List.nodup_cons.1 hkeys
    have hhead : (assign fewer first).id = (assign taken first).id ↔
        ¬(assign taken first).PassesOver text := id_assign_eq_iff hmem hnot h
    -- once the first builder has the same identifier, the rest meets the same situation
    have htail : (assign fewer first).id = (assign taken first).id →
        ((∀ key, (⟨assignAll (((assign fewer first).id.text, .builder first) :: fewer) rest⟩ :
            Resolution).id? key =
          (⟨assignAll (((assign taken first).id.text, .builder first) :: taken) rest⟩ :
            Resolution).id? key) ↔
        ∀ assignment ∈ assignAll (((assign taken first).id.text, .builder first) :: taken) rest,
          ¬assignment.PassesOver text) := by
      intro hid
      have hne : text ≠ (assign taken first).id.text := fun heq =>
        id_assign_not_mem taken first (heq ▸ hmem)
      refine ih _ _ hrest (List.mem_cons_of_mem _ hmem) ?_ fun other hother => ?_
      · rw [List.map_cons, List.mem_cons, not_or, hid]
        exact ⟨hne, hnot⟩
      · rw [List.map_cons, List.mem_cons, List.map_cons, List.mem_cons, hid, h other hother]
    rw [assignAll, assignAll]
    simp only [id?_cons, key_assign, List.forall_mem_cons]
    constructor
    · intro hall
      have hid : (assign fewer first).id = (assign taken first).id := by simpa using hall first
      refine ⟨hhead.1 hid, (htail hid).1 fun key => ?_⟩
      by_cases hkey : first = key
      · subst hkey
        rw [id?_assignAll_eq_none_iff.2 hfirst, id?_assignAll_eq_none_iff.2 hfirst]
      · simpa [hkey] using hall key
    · rintro ⟨hpass, hothers⟩ key
      have hid := hhead.2 hpass
      rw [hid, ← (htail hid).2 hothers key, hid]

/-- The same for a builder in the midst of others that is left out. -/
theorem id?_assignAll_erase_iff {taken : List (String × Holder)} {before after : List BuilderKey}
    {key : BuilderKey} (hkeys : (before ++ key :: after).Nodup) :
    (∀ other ≠ key, (⟨assignAll taken (before ++ after)⟩ : Resolution).id? other =
        (⟨assignAll taken (before ++ key :: after)⟩ : Resolution).id? other) ↔
      ∀ assignment ∈ assignAll taken (before ++ key :: after), assignment.key ≠ key →
        ¬assignment.PassesOver (assign (takenAfter taken before) key).id.text := by
  obtain ⟨-, hafter, hdisjoint⟩ := List.nodup_append.1 hkeys
  obtain ⟨hkey, hafter⟩ := List.nodup_cons.1 hafter
  have hfree := id_assign_not_mem (takenAfter taken before) key
  have hiff := id?_assignAll_eq_iff
    (((assign (takenAfter taken before) key).id.text, .builder key) :: takenAfter taken before)
    (takenAfter taken before) hafter List.mem_cons_self hfree fun other hother => by
      simp [hother]
  rw [assignAll_append, assignAll_append, assignAll]
  simp only [id?_append, id?_cons, key_assign, List.forall_mem_append, List.forall_mem_cons, ne_eq,
    not_true_eq_false, IsEmpty.forall_iff, true_and]
  constructor
  · intro hall
    have hlater := hiff.1 fun other => by
      by_cases hbefore : other ∈ before ∨ other = key
      · -- a builder that comes earlier is not named again
        have hnone : other ∉ after := by
          rcases hbefore with hbefore | rfl
          · exact fun hmem => hdisjoint other hbefore other (List.mem_cons_of_mem _ hmem) rfl
          · exact hkey
        rw [id?_assignAll_eq_none_iff.2 hnone, id?_assignAll_eq_none_iff.2 hnone]
      · rw [not_or] at hbefore
        have hother := hall other hbefore.2
        rwa [id?_assignAll_eq_none_iff.2 hbefore.1, Option.none_or, Option.none_or,
          if_neg (Ne.symm hbefore.2)] at hother
    exact ⟨fun assignment hmem _ hpass => hfree (mem_takenAfter_of_passesOver hmem hpass),
      fun assignment hmem _ => hlater assignment hmem⟩
  · rintro ⟨-, hlater⟩ other hother
    have hnamed : ∀ assignment ∈ assignAll (((assign (takenAfter taken before) key).id.text,
        .builder key) :: takenAfter taken before) after, assignment.key ≠ key := by
      intro assignment hmem heq
      exact hkey (heq ▸ key_mem_of_mem_assignAll hmem)
    rw [if_neg (Ne.symm hother),
      hiff.2 fun assignment hmem => hlater assignment hmem (hnamed assignment hmem)]

variable {keys : List BuilderKey} {key other : BuilderKey} {id : ArtifactId}

/-- A builder that is not there is not left out. -/
theorem filter_ne_eq_self {l : List BuilderKey} (h : key ∉ l) : l.filter (· ≠ key) = l := by
  refine List.filter_eq_self.2 fun other hother => ?_
  have hne : other ≠ key := fun heq => h (heq ▸ hother)
  exact decide_eq_true hne

/-- A builder that is named stands between those before it and those after
it, and gets its identifier when those before it have theirs. -/
theorem exists_split (h : (ofKeys keys).id? key = some id) :
    ∃ before after, distinctAscending keys = before ++ key :: after ∧
      distinctAscending (keys.filter (· ≠ key)) = before ++ after ∧
      (assign (takenAfter reserved before) key).id = id := by
  have hmem : key ∈ distinctAscending keys := mem_distinctAscending.2 (mem_of_id? h)
  obtain ⟨before, after, hsplit⟩ := List.append_of_mem hmem
  have hnodup : (before ++ key :: after).Nodup := hsplit ▸ (ascendsBy_distinctAscending keys).nodup
  obtain ⟨-, hafter, hdisjoint⟩ := List.nodup_append.1 hnodup
  have hbefore : key ∉ before := fun hkey => hdisjoint key hkey key List.mem_cons_self rfl
  refine ⟨before, after, hsplit, ?_, ?_⟩
  · rw [distinctAscending_filter, hsplit, List.filter_append, List.filter_cons_of_neg (by simp),
      filter_ne_eq_self hbefore, filter_ne_eq_self (List.nodup_cons.1 hafter).1]
  · rw [ofKeys, hsplit, assignAll_append, assignAll, id?_append,
      id?_assignAll_eq_none_iff.2 hbefore, Option.none_or, id?_cons, key_assign, if_pos rfl] at h
    exact Option.some.inj h

/-- **A builder that is left out makes a difference** exactly if another one
passed over its identifier. -/
theorem id?_filter_eq_iff (h : (ofKeys keys).id? key = some id) :
    (∀ other ≠ key, (ofKeys (keys.filter (· ≠ key))).id? other = (ofKeys keys).id? other) ↔
      ∀ assignment ∈ (ofKeys keys).assignments, assignment.key ≠ key →
        ¬assignment.PassesOver id.text := by
  obtain ⟨before, after, hsplit, hfilter, rfl⟩ := exists_split h
  have hnodup : (before ++ key :: after).Nodup := hsplit ▸ (ascendsBy_distinctAscending keys).nodup
  rw [ofKeys, ofKeys, hsplit, hfilter]
  exact id?_assignAll_erase_iff hnodup

/-- **A builder that is left out makes none to those before it.** -/
theorem id?_filter_of_lt (h : compare other key = .lt) :
    (ofKeys (keys.filter (· ≠ key))).id? other = (ofKeys keys).id? other := by
  have hsame : (keys.filter (· ≠ key)).filter (compare · key = .lt) =
      keys.filter (compare · key = .lt) := by
    rw [List.filter_filter]
    refine List.filter_congr fun earlier _ => ?_
    by_cases hearlier : earlier = key
    · simp [hearlier, ReflOrd.compare_self]
    · simp [hearlier]
  rw [← id?_filter_lt h, hsame, id?_filter_lt h]

/-! ## Any number of builders fewer -/

/-- Fewer builders get no later candidates. -/
theorem exists_le_of_sublist {taken fewer : List (String × Holder)} {named : List BuilderKey}
    (hsub : named.Sublist keys) (hkeys : keys.Nodup)
    (htaken : fewer.map Prod.fst ⊆ taken.map Prod.fst) (hkey : key ∈ named) {i : Nat}
    (h : (⟨assignAll taken keys⟩ : Resolution).id? key =
      some ⟨candidate (baseIdentifier key.scope key.name) i⟩) :
    ∃ j ≤ i, (⟨assignAll fewer named⟩ : Resolution).id? key =
      some ⟨candidate (baseIdentifier key.scope key.name) j⟩ := by
  induction hsub generalizing taken fewer with
  | slnil => cases hkey
  | cons left hsub ih =>
    obtain ⟨hleft, hrest⟩ := List.nodup_cons.1 hkeys
    have hne : left ≠ key := fun heq => hleft (heq ▸ hsub.subset hkey)
    rw [assignAll, id?_cons, key_assign, if_neg hne] at h
    refine ih hrest ?_ hkey h
    exact fun text htext => List.mem_cons_of_mem _ (htaken htext)
  | cons_cons first hsub ih =>
    obtain ⟨-, hrest⟩ := List.nodup_cons.1 hkeys
    rw [assignAll, id?_cons, key_assign] at h ⊢
    by_cases hfirst : first = key
    · subst hfirst
      rw [if_pos rfl] at h ⊢
      obtain ⟨k, hid, hk⟩ := exists_firstFree_assign taken first
      obtain ⟨j, hidFewer, hj⟩ := exists_firstFree_assign fewer first
      rw [base_assign] at hid hk hidFewer hj
      have hki : k = i := by
        refine candidate_injective _ (hid.symm.trans ?_)
        rw [Option.some.inj h]
      exact ⟨j, hki ▸ hk.le_of_subset hj htaken, congrArg (some ∘ ArtifactId.mk) hidFewer⟩
    · rw [if_neg hfirst] at h ⊢
      have hlater : key ∈ _ := (List.mem_cons.1 hkey).resolve_left (Ne.symm hfirst)
      refine ih hrest (fun text htext => ?_) hlater h
      -- what the first builder takes of the few is taken of the many
      rcases List.mem_cons.1 htext with rfl | htext
      · rcases id_assign_of_subset htaken first with hsame | hmem
        · rw [hsame]
          exact List.mem_cons_self
        · exact List.mem_cons_of_mem _ hmem
      · exact List.mem_cons_of_mem _ (htaken htext)

/-- **A builder keeps its base** if others are left out. -/
theorem id?_base_of_subset {named : List BuilderKey} (hsub : named ⊆ keys) (hkey : key ∈ named)
    (h : (ofKeys keys).id? key = some ⟨baseIdentifier key.scope key.name⟩) :
    (ofKeys named).id? key = some ⟨baseIdentifier key.scope key.name⟩ := by
  obtain ⟨j, hj, hid⟩ := exists_le_of_sublist (i := 0) (distinctAscending_sublist hsub)
    (ascendsBy_distinctAscending keys).nodup (List.Subset.refl _) (mem_distinctAscending.2 hkey) h
  obtain rfl := Nat.le_zero.1 hj
  exact hid

end Resolution

end BuilderForge

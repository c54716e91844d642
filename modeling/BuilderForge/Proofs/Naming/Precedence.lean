import BuilderForge.Proofs.Naming.Fewer

/-!
# Builders that come first

A builder gets its identifier when all builders with smaller keys have
theirs, so those are the only ones that it depends on: the builders before a
key are named as if they were alone, whoever comes behind them
(`names_unmoved_by_later`).

What is taken when the turn comes to a builder can then be told from the
result: it is what the support artifacts have and what the builders before
it have in the end (`lookup_takenBefore_iff`). In these terms the naming is
the greedy one, with the least free number behind a base, and its collisions
are exactly the builders without their bases, each with the one holder of
its base (`named_greedily`).
-/

namespace BuilderForge

open Std

namespace Naming

/-! ## What is taken, and by whom -/

variable {taken : List (String × Holder)} {keys : List BuilderKey} {key : BuilderKey}
variable {text : String} {holder : Holder}

/-- What builders take is what they are assigned, each for itself. -/
theorem mem_takenAfter_iff : (text, holder) ∈ takenAfter taken keys ↔
    (text, holder) ∈ taken ∨
      ∃ assignment ∈ assignAll taken keys, assignment.id.text = text ∧
        holder = .builder assignment.key := by
  induction keys generalizing taken with
  | nil => simp [takenAfter, assignAll]
  | cons first rest ih =>
    rw [takenAfter, ih, assignAll, List.mem_cons, Prod.mk.injEq]
    simp only [List.exists_mem_cons_iff, key_assign, or_assoc, eq_comm (a := text)]
    exact or_left_comm

/-- No text is taken twice. -/
theorem nodup_takenAfter (h : (taken.map Prod.fst).Nodup) (keys : List BuilderKey) :
    ((takenAfter taken keys).map Prod.fst).Nodup := by
  induction keys generalizing taken with
  | nil => exact h
  | cons first rest ih => exact ih (List.nodup_cons.2 ⟨id_assign_not_mem taken first, h⟩)

/-- So a text has the holder that it is listed with. -/
theorem lookup_eq_some_iff_of_nodup (h : (taken.map Prod.fst).Nodup) :
    taken.lookup text = some holder ↔ (text, holder) ∈ taken := by
  constructor
  · intro hlookup
    obtain ⟨before, after, rfl, -⟩ := List.lookup_eq_some_iff.1 hlookup
    exact List.mem_append_right _ List.mem_cons_self
  · intro hmem
    obtain ⟨before, after, rfl⟩ := List.append_of_mem hmem
    rw [List.map_append, List.map_cons] at h
    have hbefore : text ∉ before.map Prod.fst := fun htext =>
      (List.nodup_append.1 h).2.2 text htext text List.mem_cons_self rfl
    refine List.lookup_eq_some_iff.2 ⟨before, after, rfl, fun pair hpair => ?_⟩
    have hne : text ≠ pair.1 := fun heq => hbefore (heq ▸ List.mem_map_of_mem hpair)
    simpa using hne

/-- The support artifacts hold their own identifiers. -/
theorem mem_reserved_iff : (text, holder) ∈ reserved ↔
    holder = .support ∧ (text = markerId.text ∨ text = rulesId.text) := by
  simp only [reserved, List.mem_cons, Prod.mk.injEq, List.not_mem_nil, or_false, ← or_and_right]
  exact and_comm

end Naming

namespace Resolution

open Naming

variable {keys more : List BuilderKey} {key other : BuilderKey} {id : ArtifactId}

/-! ## Later builders -/

/-- A builder before a key has the collision that it would have without those
behind it, if any. -/
theorem collisions_filter_lt (h : compare other key = .lt) :
    (ofKeys (keys.filter (compare · key = .lt))).collisions.filter (·.1.key = other) =
      (ofKeys keys).collisions.filter (·.1.key = other) := by
  have hcollisions : ∀ resolution : Resolution,
      resolution.collisions.filter (·.1.key = other) =
        (resolution.assignments.filter (·.key = other)).filterMap fun assignment =>
          assignment.holder.map fun holder => (assignment, holder) := by
    intro resolution
    rw [collisions, List.filter_filterMap, List.filterMap_filter]
    refine List.filterMap_congr fun assignment _ => ?_
    by_cases hkey : assignment.key = other <;> cases assignment.holder <;> simp [hkey]
  rw [hcollisions, hcollisions, filter_key_assignments h]

/-- **A builder that joins others moves no name before it.** Every builder
with a smaller key keeps its identifier, and the collision that is reported
for it, if there is one. -/
theorem names_unmoved_by_later (keys more : List BuilderKey) (key : BuilderKey)
    (hmore : ∀ other, other ∈ more ↔ other = key ∨ other ∈ keys) {other : BuilderKey}
    (hlt : compare other key = .lt) :
    (ofKeys more).id? other = (ofKeys keys).id? other ∧
      (ofKeys more).collisions.filter (·.1.key = other) =
        (ofKeys keys).collisions.filter (·.1.key = other) := by
  have hsame : ofKeys (more.filter (compare · key = .lt)) =
      ofKeys (keys.filter (compare · key = .lt)) := by
    rw [ofKeys, ofKeys, distinctAscending_congr fun earlier => ?_]
    simp only [List.mem_filter, decide_eq_true_eq, hmore]
    constructor
    · rintro ⟨rfl | hmem, hearlier⟩
      · -- no key is smaller than itself
        rw [ReflOrd.compare_self] at hearlier
        cases hearlier
      · exact ⟨hmem, hearlier⟩
    · exact fun h => ⟨.inr h.1, h.2⟩
  constructor
  · rw [← id?_filter_lt hlt, hsame, id?_filter_lt hlt]
  · rw [← collisions_filter_lt hlt, hsame, collisions_filter_lt hlt]

/-- Builders of which the first takes the base of the other two. -/
def claimants : List BuilderKey :=
  [⟨"", "A_B_Builder"⟩, ⟨"A.B", "Builder"⟩, ⟨"A::B", "Builder"⟩]

/-- Another builder of that base, between the other two, moves only the
last. -/
theorem names_unmoved_by_later_of_claimants :
    (∀ other, other ∈ ⟨"A.B.", "Builder"⟩ :: claimants ↔
        other = ⟨"A.B.", "Builder"⟩ ∨ other ∈ claimants) ∧
      compare (⟨"A.B", "Builder"⟩ : BuilderKey) ⟨"A.B.", "Builder"⟩ = .lt ∧
      (ofKeys (⟨"A.B.", "Builder"⟩ :: claimants)).id? ⟨"A.B", "Builder"⟩ =
        (ofKeys claimants).id? ⟨"A.B", "Builder"⟩ ∧
      (ofKeys (⟨"A.B.", "Builder"⟩ :: claimants)).id? ⟨"A::B", "Builder"⟩ ≠
        (ofKeys claimants).id? ⟨"A::B", "Builder"⟩ := by
  have hmore : ∀ other, other ∈ ⟨"A.B.", "Builder"⟩ :: claimants ↔
      other = ⟨"A.B.", "Builder"⟩ ∨ other ∈ claimants := fun _ => List.mem_cons
  have hlt : compare (⟨"A.B", "Builder"⟩ : BuilderKey) ⟨"A.B.", "Builder"⟩ = .lt := by
    decide +kernel
  exact ⟨hmore, hlt, (names_unmoved_by_later _ _ _ hmore hlt).1, by decide +kernel⟩

/-! ## What is taken when the turn comes to a builder -/

/-- **Who has a text when the turn comes to a builder**: a support artifact
whose identifier it is, or a builder with a smaller key that has it for its
identifier. -/
inductive HeldBefore (resolution : Resolution) (key : BuilderKey) (text : String) : Holder → Prop
  | support : text = markerId.text ∨ text = rulesId.text → HeldBefore resolution key text .support
  | builder {other : BuilderKey} : compare other key = .lt → resolution.id? other = some ⟨text⟩ →
      HeldBefore resolution key text (.builder other)

/-- Nobody has the text when the turn comes to the builder. -/
def FreeBefore (resolution : Resolution) (key : BuilderKey) (text : String) : Prop :=
  ∀ holder, ¬resolution.HeldBefore key text holder

/-- What is taken when the turn comes to the builder. -/
def takenBefore (keys : List BuilderKey) (key : BuilderKey) : List (String × Holder) :=
  takenAfter reserved (distinctAscending (keys.filter (compare · key = .lt)))

/-- A builder is assigned an identifier when its turn comes. -/
theorem assign_mem_assignments (h : key ∈ keys) :
    assign (takenBefore keys key) key ∈ (ofKeys keys).assignments := by
  obtain ⟨before, after, hsplit⟩ := List.append_of_mem (mem_distinctAscending.2 h)
  have hascends : AscendsBy id (before ++ key :: after) :=
    hsplit ▸ ascendsBy_distinctAscending keys
  have hearlier : distinctAscending (keys.filter (compare · key = .lt)) = before := by
    rw [distinctAscending_filter, hsplit, hascends.filter_lt_eq]
  rw [takenBefore, hearlier, ofKeys, hsplit, assignAll_append, assignAll]
  exact List.mem_append_right _ List.mem_cons_self

/-- So every assignment is that of its builder's turn. -/
theorem eq_assign_of_mem {assignment : Assignment} (h : assignment ∈ (ofKeys keys).assignments) :
    assignment = assign (takenBefore keys assignment.key) assignment.key := by
  have hnodup : ((ofKeys keys).assignments.map Assignment.key).Nodup := by
    rw [ofKeys, map_key_assignAll]
    exact (ascendsBy_distinctAscending keys).nodup
  have hkey : assignment.key ∈ keys := mem_of_id? (id?_of_mem_assignments h)
  exact List.inj_on_of_nodup_map hnodup h (assign_mem_assignments hkey) (key_assign _ _).symm

/-- **What is taken when the turn comes to a builder shows in the result.** -/
theorem lookup_takenBefore_iff {text : String} {holder : Holder} :
    (takenBefore keys key).lookup text = some holder ↔
      (ofKeys keys).HeldBefore key text holder := by
  have hnodup : ((takenBefore keys key).map Prod.fst).Nodup := nodup_takenAfter (by decide) _
  have hearlier : ∀ assignment,
      assignment ∈ assignAll reserved (distinctAscending (keys.filter (compare · key = .lt))) ↔
        assignment ∈ (ofKeys keys).assignments ∧ compare assignment.key key = .lt := by
    intro assignment
    have hmem := congrArg (assignment ∈ ·) (filter_assignments keys key)
    rw [List.mem_filter, decide_eq_true_eq] at hmem
    exact (iff_of_eq hmem).symm
  rw [lookup_eq_some_iff_of_nodup hnodup, takenBefore, mem_takenAfter_iff, mem_reserved_iff]
  simp only [hearlier]
  constructor
  · rintro (⟨rfl, htext⟩ | ⟨assignment, ⟨hmem, hlt⟩, rfl, rfl⟩)
    · exact .support htext
    · exact .builder hlt (id?_of_mem_assignments hmem)
  · rintro (htext | ⟨hlt, hid⟩)
    · exact .inl ⟨rfl, htext⟩
    · obtain ⟨assignment, hmem, rfl, hassigned⟩ := exists_of_id? hid
      exact .inr ⟨assignment, ⟨hmem, hlt⟩, congrArg ArtifactId.text hassigned, rfl⟩

/-- A text is free if it has no holder. -/
theorem freeBefore_iff {text : String} :
    (ofKeys keys).FreeBefore key text ↔ text ∉ (takenBefore keys key).map Prod.fst := by
  constructor
  · intro hfree hmem
    obtain ⟨⟨_, holder⟩, hpair, rfl⟩ := List.mem_map.1 hmem
    have hnodup : ((takenBefore keys key).map Prod.fst).Nodup := nodup_takenAfter (by decide) _
    exact hfree holder (lookup_takenBefore_iff.1 ((lookup_eq_some_iff_of_nodup hnodup).2 hpair))
  · intro hmem holder hheld
    exact hmem (mem_of_lookup (lookup_takenBefore_iff.2 hheld))

/-! ## The greedy naming -/

/-- **A resolution names builders greedily and reports truthfully.** -/
structure NamesGreedily (resolution : Resolution) (keys : List BuilderKey) : Prop where
  /-- A builder has its base exactly if that is free when its turn comes. -/
  base : ∀ key ∈ keys,
    resolution.id? key = some ⟨baseIdentifier key.scope key.name⟩ ↔
      resolution.FreeBefore key (baseIdentifier key.scope key.name)
  /-- Otherwise it has the base with the least number, from two on, that is
  free then. -/
  numbered : ∀ key ∈ keys, ¬resolution.FreeBefore key (baseIdentifier key.scope key.name) →
    ∃ n, 2 ≤ n ∧ resolution.id? key = some ⟨numbered (baseIdentifier key.scope key.name) n⟩ ∧
      resolution.FreeBefore key (numbered (baseIdentifier key.scope key.name) n) ∧
      ∀ m, 2 ≤ m → m < n →
        ¬resolution.FreeBefore key (numbered (baseIdentifier key.scope key.name) m)
  /-- Collisions are reported in the order of the keys, none twice, -/
  ascends : AscendsBy (fun entry => entry.1.key) resolution.collisions
  /-- for those builders that do not have their bases, -/
  reported : ∀ key, key ∈ resolution.collisions.map (fun entry => entry.1.key) ↔
    key ∈ keys ∧ resolution.id? key ≠ some ⟨baseIdentifier key.scope key.name⟩
  /-- each with its base, the identifier that it has, and the only holder of
  the base when its turn came. -/
  truthful : ∀ entry ∈ resolution.collisions,
    entry.1.base = baseIdentifier entry.1.key.scope entry.1.key.name ∧
    resolution.id? entry.1.key = some entry.1.id ∧
    ∀ holder, resolution.HeldBefore entry.1.key entry.1.base holder ↔ holder = entry.2

/-- A builder has the identifier of its turn. -/
theorem id?_of_mem (h : key ∈ keys) :
    (ofKeys keys).id? key = some (assign (takenBefore keys key) key).id := by
  have hid := id?_of_mem_assignments (assign_mem_assignments h)
  rwa [key_assign] at hid

/-- **It has its base exactly if that is free.** -/
theorem id?_eq_base_iff (h : key ∈ keys) :
    (ofKeys keys).id? key = some ⟨baseIdentifier key.scope key.name⟩ ↔
      (ofKeys keys).FreeBefore key (baseIdentifier key.scope key.name) := by
  rw [id?_of_mem h, Option.some.injEq]
  constructor
  · intro hid
    rw [freeBefore_iff]
    have hfree := id_assign_not_mem (takenBefore keys key) key
    rwa [hid] at hfree
  · intro hfree
    cases hlookup : (takenBefore keys key).lookup (baseIdentifier key.scope key.name) with
    | none => rw [assign_of_free hlookup]
    | some holder => exact absurd (lookup_takenBefore_iff.1 hlookup) (hfree holder)

/-- **And otherwise its base with the least free number.** -/
theorem exists_numbered (h : key ∈ keys)
    (hheld : ¬(ofKeys keys).FreeBefore key (baseIdentifier key.scope key.name)) :
    ∃ n, 2 ≤ n ∧ (ofKeys keys).id? key = some ⟨numbered (baseIdentifier key.scope key.name) n⟩ ∧
      (ofKeys keys).FreeBefore key (numbered (baseIdentifier key.scope key.name) n) ∧
      ∀ m, 2 ≤ m → m < n →
        ¬(ofKeys keys).FreeBefore key (numbered (baseIdentifier key.scope key.name) m) := by
  obtain ⟨i, hid, hfirst⟩ := exists_firstFree_assign (takenBefore keys key) key
  rw [base_assign] at hid hfirst
  cases i with
  | zero => exact absurd (freeBefore_iff.2 hfirst.free) hheld
  | succ i =>
    refine ⟨i + 2, by omega, ?_, freeBefore_iff.2 hfirst.free, fun m hlow hlt => ?_⟩
    · rw [id?_of_mem h]
      exact congrArg (some ∘ ArtifactId.mk) hid
    · obtain ⟨j, rfl⟩ := Nat.exists_eq_add_of_le' hlow
      rw [freeBefore_iff, not_not]
      exact hfirst.taken (j + 1) (by omega)

/-- What is reported are the assignments that have a rival. -/
theorem mem_collisions {resolution : Resolution} {entry : Assignment × Holder} :
    entry ∈ resolution.collisions ↔
      entry.1 ∈ resolution.assignments ∧ entry.1.holder = some entry.2 := by
  obtain ⟨assignment, holder⟩ := entry
  simp only [collisions, List.mem_filterMap, Option.map_eq_some_iff, Prod.mk.injEq]
  constructor
  · rintro ⟨_, hmem, _, hholder, rfl, rfl⟩
    exact ⟨hmem, hholder⟩
  · rintro ⟨hmem, hholder⟩
    exact ⟨assignment, hmem, holder, hholder, rfl, rfl⟩

/-- They stand in the order of the keys. -/
theorem ascendsBy_collisions (keys : List BuilderKey) :
    AscendsBy (fun entry => entry.1.key) (ofKeys keys).collisions := by
  have hkeys : ((ofKeys keys).collisions.map fun entry => entry.1.key).Sublist
      (distinctAscending keys) := by
    rw [← map_key_assignAll reserved (distinctAscending keys)]
    refine map_filterMap_sublist (fun assignment entry hentry => ?_) (ofKeys keys).assignments
    obtain ⟨holder, -, rfl⟩ := Option.map_eq_some_iff.1 hentry
    rfl
  exact List.pairwise_map.1 ((ascendsBy_distinctAscending keys).sublist hkeys)

/-- The rival is who has the base. -/
theorem holder_eq_some_iff {assignment : Assignment} {holder : Holder}
    (h : assignment ∈ (ofKeys keys).assignments) : assignment.holder = some holder ↔
      (ofKeys keys).HeldBefore assignment.key
        (baseIdentifier assignment.key.scope assignment.key.name) holder := by
  rw [← lookup_takenBefore_iff]
  have heq := eq_assign_of_mem h
  cases hlookup : (takenBefore keys assignment.key).lookup
      (baseIdentifier assignment.key.scope assignment.key.name) with
  | none =>
    rw [assign_of_free hlookup] at heq
    rw [heq]
  | some found =>
    rw [assign_of_taken hlookup] at heq
    rw [heq]

/-- **The naming of builders is greedy, and its report is the truth.** Each
builder has its base if no support artifact and no builder before it has
that, and otherwise its base with the least number, from two on, that none of
those has; and the collisions are the builders without their bases, in the
order of their keys, each with the identifier that it has and the one holder
of its base. -/
theorem named_greedily (keys : List BuilderKey) : (ofKeys keys).NamesGreedily keys where
  base _ := id?_eq_base_iff
  numbered _ := exists_numbered
  ascends := ascendsBy_collisions keys
  reported key := by
    simp only [List.mem_map, mem_collisions]
    constructor
    · rintro ⟨⟨assignment, holder⟩, ⟨hmem, hholder⟩, rfl⟩
      have hkey : assignment.key ∈ keys := mem_of_id? (id?_of_mem_assignments hmem)
      refine ⟨hkey, fun hbase => ?_⟩
      exact (id?_eq_base_iff hkey).1 hbase holder ((holder_eq_some_iff hmem).1 hholder)
    · rintro ⟨hkey, hbase⟩
      rw [Ne, id?_eq_base_iff hkey, FreeBefore, not_forall] at hbase
      obtain ⟨holder, hheld⟩ := hbase
      have hmem := assign_mem_assignments hkey
      refine ⟨⟨_, holder⟩, ⟨hmem, (holder_eq_some_iff hmem).2 ?_⟩, key_assign _ _⟩
      rw [key_assign]
      exact not_not.1 hheld
  truthful entry hentry := by
    obtain ⟨hmem, hholder⟩ := mem_collisions.1 hentry
    have hbase : entry.1.base = baseIdentifier entry.1.key.scope entry.1.key.name := by
      conv_lhs => rw [eq_assign_of_mem hmem, base_assign]
    refine ⟨hbase, id?_of_mem_assignments hmem, fun holder => ?_⟩
    rw [hbase, ← holder_eq_some_iff hmem, hholder, Option.some.injEq, eq_comm]

end Resolution

end BuilderForge

import BuilderForge.Emission.Capacity
import BuilderForge.Proofs.Spec.Canonical
import Mathlib.Algebra.BigOperators.Fin
import Mathlib.Algebra.Order.BigOperators.Group.Finset

/-!
# More takes more room

One specification fits in another if neither its name nor its target is longer
and its members can be placed among those of the other, each at a place of its
own (`BuilderSpec.FitsIn`). Each of the two parts and sorts its own members, so
a member and the one that it fits in seldom stand at the same position, and a
placement may cross; what counts are the members that were handed in
(`fitsIn_ofMembers_iff`).

An estimate is five percent more than the bulk of its specification, and the
bulk is a sum with one term for each member, in which every byte counts. So the
bulk grows along a placement (`Member.Placed.sum_weight_le`) and stays the same
only where the placement can be turned around
(`Member.Placed.symm_of_sum_weight_le`). The five percent outweigh what is
rounded off (`capacity_le_iff`), so the same is true of the estimate
(`capacity_strictMono`).

Estimates are plain numbers. A machine whose numbers have a fixed width finds
the same ones unless a number on the way is too large for it, and none is
larger than the last product (`capacityWithinBits_eq_some_iff`).
-/

namespace BuilderForge

namespace Member

variable {small large : Member} {few many : List Member}

/-! ## Weights -/

/-- **One member fits in another**: neither its name nor its type is longer,
and if it is a collection then so is the other. -/
structure FitsIn (small large : Member) : Prop where
  name_le : small.name.utf8ByteSize ≤ large.name.utf8ByteSize
  typeName_le : small.typeName.utf8ByteSize ≤ large.typeName.utf8ByteSize
  collection : small.isCollection → large.isCollection

/-- What a member adds to the estimate, the loop of a collection included. -/
def weight (member : Member) : Nat :=
  member.cost + if member.isCollection then collectionCost else 0

theorem weight_pos (member : Member) : 0 < member.weight := by
  have hcost : 0 < member.cost := by
    rw [cost, memberCost]
    omega
  exact Nat.add_pos_left hcost _

/-- A member that fits in another one weighs no more, -/
theorem FitsIn.weight_le (h : small.FitsIn large) : small.weight ≤ large.weight := by
  have hcost : small.cost ≤ large.cost :=
    Nat.add_le_add (Nat.add_le_add_left h.name_le _) h.typeName_le
  have hloop : (if small.isCollection then collectionCost else 0) ≤
      if large.isCollection then collectionCost else 0 := by
    split
    case isTrue hsmall => rw [if_pos (h.collection hsmall)]
    case isFalse => exact Nat.zero_le _
  exact Nat.add_le_add hcost hloop

/-- and if it weighs as much, the other one fits in it. -/
theorem FitsIn.symm_of_weight_eq (h : small.FitsIn large) (hweight : small.weight = large.weight) :
    large.FitsIn small := by
  obtain ⟨hname, htype, hcollection⟩ := h
  unfold weight cost collectionCost at hweight
  cases hsmall : small.isCollection <;> cases hlarge : large.isCollection <;>
    simp only [hsmall, hlarge, Bool.false_eq_true, if_true, if_false] at hweight hcollection
  -- only the other one has the loop, and longer names cannot make up for it here
  case false.true => omega
  case true.false => exact absurd trivial hcollection
  all_goals exact ⟨by omega, by omega, by simp [hsmall, hlarge]⟩

/-- Members weigh what they cost, and a loop for each collection. -/
theorem sum_weight (members : List Member) : (members.map weight).sum =
    totalCost members + members.countP isCollection * collectionCost := by
  induction members with
  | nil => rfl
  | cons member rest ih =>
    rw [List.map_cons, List.sum_cons, ih, totalCost, weight, List.countP_cons, Nat.add_mul]
    cases member.isCollection <;> simp only [Bool.false_eq_true, if_true, if_false] <;> omega

/-! ## Places -/

/-- **Members are placed among others**: each at a place that it shares with
none, where a member stands that it fits in. -/
def Placed (few many : List Member) : Prop :=
  ∃ place : Fin few.length → Fin many.length, place.Injective ∧
    ∀ i : Fin few.length, few[i].FitsIn many[place i]

/-- **In what order the members stand does not matter**, nor that some of them
are gone and some more are to be found where they go. -/
theorem Placed.mono {fewer more : List Member} (h : Placed few many) (hfewer : fewer.Subperm few)
    (hmore : many.Subperm more) : Placed fewer more := by
  obtain ⟨place, hplace, hfits⟩ := h
  refine ⟨fun i => hmore.idxInj (place (hfewer.idxInj i)),
    hmore.idxInj_injective.comp (hplace.comp hfewer.idxInj_injective), fun i => ?_⟩
  have hfit := hfits (hfewer.idxInj i)
  simp only [Fin.getElem_fin] at hfit ⊢
  rwa [hfewer.getElem_idxInj_eq_getElem, ← hmore.getElem_idxInj_eq_getElem] at hfit

section Place

variable {place : Fin few.length → Fin many.length}

/-- A list weighs what stands at the places and what stands at the free ones. -/
theorem sum_place_add_sum_free (hplace : place.Injective) :
    ∑ i, many[place i].weight + ∑ j ∈ (Finset.univ.map ⟨place, hplace⟩)ᶜ, many[j].weight =
      (many.map weight).sum :=
  calc ∑ i, many[place i].weight + ∑ j ∈ (Finset.univ.map ⟨place, hplace⟩)ᶜ, many[j].weight
      = ∑ j ∈ Finset.univ.map ⟨place, hplace⟩, many[j].weight +
          ∑ j ∈ (Finset.univ.map ⟨place, hplace⟩)ᶜ, many[j].weight := by rw [Finset.sum_map]; rfl
    _ = ∑ j : Fin many.length, many[j].weight := Finset.sum_add_sum_compl _ _
    _ = (many.map weight).sum := Fin.sum_univ_fun_getElem many weight

/-- Members weigh no more than what stands at their places. -/
theorem sum_weight_le_sum_place (hfits : ∀ i : Fin few.length, few[i].FitsIn many[place i]) :
    (few.map weight).sum ≤ ∑ i, many[place i].weight :=
  calc (few.map weight).sum
      = ∑ i : Fin few.length, few[i].weight := (Fin.sum_univ_fun_getElem few weight).symm
    _ ≤ ∑ i, many[place i].weight := Finset.sum_le_sum fun i _ => (hfits i).weight_le

/-- **No place is free and no member lighter** than the one at its place if
the lists weigh the same. -/
theorem tight_of_sum_weight_le (hplace : place.Injective)
    (hfits : ∀ i : Fin few.length, few[i].FitsIn many[place i])
    (hweight : (many.map weight).sum ≤ (few.map weight).sum) :
    place.Surjective ∧ ∀ i : Fin few.length, few[i].weight = many[place i].weight := by
  have hle := sum_weight_le_sum_place hfits
  have hsplit := sum_place_add_sum_free hplace
  constructor
  · intro free
    by_contra hfree
    have hmem : free ∈ (Finset.univ.map ⟨place, hplace⟩)ᶜ := by simpa using hfree
    have hone : many[free].weight ≤ ∑ j ∈ (Finset.univ.map ⟨place, hplace⟩)ᶜ, many[j].weight :=
      Finset.single_le_sum (f := fun j : Fin many.length => many[j].weight)
        (fun _ _ => Nat.zero_le _) hmem
    have hpos := weight_pos many[free]
    omega
  · have hfew : ∑ i : Fin few.length, few[i].weight = (few.map weight).sum :=
      Fin.sum_univ_fun_getElem few weight
    have heq : ∑ i : Fin few.length, few[i].weight = ∑ i, many[place i].weight := by omega
    have heach := (Finset.sum_eq_sum_iff_of_le fun i _ => (hfits i).weight_le).1 heq
    exact fun i => heach i (Finset.mem_univ i)

end Place

/-- **Members that are placed among others weigh no more**, -/
theorem Placed.sum_weight_le (h : Placed few many) :
    (few.map weight).sum ≤ (many.map weight).sum := by
  obtain ⟨place, hplace, hfits⟩ := h
  calc (few.map weight).sum
      ≤ ∑ i, many[place i].weight := sum_weight_le_sum_place hfits
    _ ≤ (many.map weight).sum := (Nat.le_add_right _ _).trans_eq (sum_place_add_sum_free hplace)

/-- **and if they weigh as much, the others can be placed among them.** -/
theorem Placed.symm_of_sum_weight_le (h : Placed few many)
    (hweight : (many.map weight).sum ≤ (few.map weight).sum) : Placed many few := by
  obtain ⟨place, hplace, hfits⟩ := h
  obtain ⟨hsurjective, heach⟩ := tight_of_sum_weight_le hplace hfits hweight
  refine ⟨Function.surjInv hsurjective, Function.injective_surjInv hsurjective, fun j => ?_⟩
  have hback := (hfits (Function.surjInv hsurjective j)).symm_of_weight_eq (heach _)
  simpa only [Function.surjInv_eq] using hback

end Member

namespace BuilderSpec

variable {small large : BuilderSpec}

/-! ## Bulk -/

/-- **One specification fits in another**: neither its name nor its target is
longer, and its members can be placed among those of the other. -/
structure FitsIn (small large : BuilderSpec) : Prop where
  name_le : small.name.utf8ByteSize ≤ large.name.utf8ByteSize
  target_le : small.target.utf8ByteSize ≤ large.target.utf8ByteSize
  members : Member.Placed small.members large.members

/-- Whether one specification fits in another can be told from the members that
they are made of, before these are parted and sorted. -/
theorem fitsIn_ofMembers_iff {name scope target name' scope' target' : String}
    {few many : List Member} :
    (ofMembers name scope target few).FitsIn (ofMembers name' scope' target' many) ↔
      name.utf8ByteSize ≤ name'.utf8ByteSize ∧ target.utf8ByteSize ≤ target'.utf8ByteSize ∧
        Member.Placed few many := by
  constructor
  · rintro ⟨hname, htarget, hplaced⟩
    exact ⟨hname, htarget, hplaced.mono members_ofMembers_perm.symm.subperm
      members_ofMembers_perm.subperm⟩
  · rintro ⟨hname, htarget, hplaced⟩
    exact ⟨hname, htarget, hplaced.mono members_ofMembers_perm.subperm
      members_ofMembers_perm.symm.subperm⟩

/-- The estimate before the five percent. -/
def bulk (spec : BuilderSpec) : Nat :=
  headerCost + footerCost + spec.name.utf8ByteSize + spec.target.utf8ByteSize +
    (spec.members.map Member.weight).sum

/-- The collections among the members are those of the second part. -/
theorem countP_members (spec : BuilderSpec) :
    spec.members.countP Member.isCollection = spec.collections.length := by
  have hnormal : spec.normal.countP Member.isCollection = 0 :=
    List.countP_eq_zero.2 fun m hm => by simp [Member.isCollection, spec.normal_settable m hm]
  have hcollections : spec.collections.countP Member.isCollection = spec.collections.length :=
    List.countP_eq_length.2 fun m hm => by
      simp [Member.isCollection, spec.collections_collection m hm]
  rw [members, List.countP_append, hnormal, hcollections, Nat.zero_add]

/-- The bulk, with the loops of the collections counted apart. -/
theorem bulk_eq (spec : BuilderSpec) : spec.bulk =
    headerCost + footerCost + spec.name.utf8ByteSize + spec.target.utf8ByteSize +
      Member.totalCost spec.members + spec.collections.length * collectionCost := by
  rw [bulk, Member.sum_weight, countP_members, ← Nat.add_assoc]

theorem capacity_eq (spec : BuilderSpec) : spec.capacity = spec.bulk * 105 / 100 := by
  rw [bulk_eq]
  rfl

/-- **Rounding down hides no difference**: with five percent on top, a byte
more of bulk is at least a byte more in the estimate. -/
theorem capacity_le_iff : small.capacity ≤ large.capacity ↔ small.bulk ≤ large.bulk := by
  rw [capacity_eq, capacity_eq]
  omega

/-- A specification that fits in another one has no more bulk, -/
theorem FitsIn.bulk_le (h : small.FitsIn large) : small.bulk ≤ large.bulk :=
  Nat.add_le_add (Nat.add_le_add (Nat.add_le_add_left h.name_le _) h.target_le)
    h.members.sum_weight_le

/-- and if it has as much, the other one fits in it. -/
theorem FitsIn.symm_of_bulk_le (h : small.FitsIn large) (hbulk : large.bulk ≤ small.bulk) :
    large.FitsIn small := by
  have hmembers := h.members.sum_weight_le
  obtain ⟨hname, htarget, hplaced⟩ := h
  unfold bulk at hbulk
  exact ⟨by omega, by omega, hplaced.symm_of_sum_weight_le (by omega)⟩

end BuilderSpec

/-! ## Numbers of a fixed width -/

section Width

variable {width n m : Nat}

/-- A number, if `width` bits hold it. -/
def withinBits (width n : Nat) : Option Nat :=
  Option.guard (· < 2 ^ width) n

theorem withinBits_eq_some_iff : withinBits width n = some m ↔ n < 2 ^ width ∧ n = m := by
  rw [withinBits, Option.guard_eq_some_iff, decide_eq_true_eq, and_comm]

theorem withinBits_eq_none_iff : withinBits width n = none ↔ 2 ^ width ≤ n := by
  rw [withinBits, Option.guard_eq_none_iff, decide_eq_false_iff_not, Nat.not_lt]

/-- On the way to a larger number a smaller one is always held. -/
theorem withinBits_bind {next : Nat → Nat} (h : n ≤ next n) :
    (withinBits width n).bind (fun n => withinBits width (next n)) = withinBits width (next n) := by
  by_cases hn : n < 2 ^ width
  · rw [withinBits_eq_some_iff.2 ⟨hn, rfl⟩, Option.bind_some]
  · have hnext : 2 ^ width ≤ next n := (Nat.not_lt.1 hn).trans h
    rw [withinBits_eq_none_iff.2 (Nat.not_lt.1 hn), withinBits_eq_none_iff.2 hnext,
      Option.bind_none]

end Width

namespace Member

variable {width : Nat}

/-- The cost of a member, from left to right. -/
def costWithinBits (width : Nat) (member : Member) : Option Nat := do
  let named ← withinBits width (memberCost + member.name.utf8ByteSize)
  withinBits width (named + member.typeName.utf8ByteSize)

/-- A sum, with the cost of one more member added. -/
def addCostWithinBits (width sum : Nat) (member : Member) : Option Nat := do
  let cost ← member.costWithinBits width
  withinBits width (sum + cost)

/-- What members cost together, added one by one. -/
def totalCostWithinBits (width : Nat) (members : List Member) : Option Nat :=
  members.foldlM (addCostWithinBits width) 0

theorem addCostWithinBits_eq (width sum : Nat) (member : Member) :
    member.addCostWithinBits width sum = withinBits width (sum + member.cost) := by
  have hcost : member.costWithinBits width = withinBits width member.cost :=
    withinBits_bind (Nat.le_add_right _ _)
  rw [addCostWithinBits, hcost]
  exact withinBits_bind (Nat.le_add_left _ _)

/-- Sums grow, so all of them are held if the last one is. -/
theorem foldlM_addCostWithinBits {sum : Nat} (members : List Member) (hsum : sum < 2 ^ width) :
    members.foldlM (addCostWithinBits width) sum = withinBits width (sum + totalCost members) := by
  induction members generalizing sum with
  | nil => exact (withinBits_eq_some_iff.2 ⟨hsum, rfl⟩).symm
  | cons member rest ih =>
    rw [List.foldlM_cons, addCostWithinBits_eq, totalCost, ← Nat.add_assoc]
    by_cases hnext : sum + member.cost < 2 ^ width
    · rw [withinBits_eq_some_iff.2 ⟨hnext, rfl⟩]
      exact ih hnext
    · have hlast : 2 ^ width ≤ sum + member.cost + totalCost rest := by omega
      rw [withinBits_eq_none_iff.2 (Nat.not_lt.1 hnext), withinBits_eq_none_iff.2 hlast]
      rfl

theorem totalCostWithinBits_eq (width : Nat) (members : List Member) :
    totalCostWithinBits width members = withinBits width (totalCost members) := by
  rw [totalCostWithinBits, foldlM_addCostWithinBits members (Nat.two_pow_pos width), Nat.zero_add]

end Member

namespace BuilderSpec

variable {small large : BuilderSpec}

/-- The estimate on a machine whose numbers have `width` bits; there is none if
a number on the way has more. -/
def capacityWithinBits (width : Nat) (spec : BuilderSpec) : Option Nat := do
  let members ← Member.totalCostWithinBits width spec.members
  let collections ← withinBits width (spec.collections.length * collectionCost)
  let frame ← withinBits width (headerCost + footerCost)
  let named ← withinBits width (frame + spec.name.utf8ByteSize)
  let fixed ← withinBits width (named + spec.target.utf8ByteSize)
  let filled ← withinBits width (fixed + members)
  let bulk ← withinBits width (filled + collections)
  let enlarged ← withinBits width (bulk * 105)
  return enlarged / 100

/-- **A machine finds the estimate exactly if it holds the bulk**, enlarged,
for that is the largest of the numbers on the way. -/
theorem capacityWithinBits_eq_some_iff {width n : Nat} {spec : BuilderSpec} :
    spec.capacityWithinBits width = some n ↔ spec.bulk * 105 < 2 ^ width ∧ n = spec.capacity := by
  simp only [capacityWithinBits, Member.totalCostWithinBits_eq, bind, pure,
    Option.bind_eq_some_iff, withinBits_eq_some_iff, and_assoc, exists_and_left, exists_eq_left',
    Option.some.injEq]
  rw [capacity_eq, bulk_eq]
  constructor
  · intro h
    omega
  · intro h
    omega

/-! ## Growth -/

/-- **Estimates grow.** A specification that fits in another one is estimated
no larger, and as large only if the other one fits in it as well. A machine
that finds the estimate of the other one finds both. -/
theorem capacity_strictMono (h : small.FitsIn large) :
    small.capacity ≤ large.capacity ∧
      (small.capacity = large.capacity ↔ large.FitsIn small) ∧
      ∀ width, (large.capacityWithinBits width).isSome →
        small.capacityWithinBits width = some small.capacity ∧
          large.capacityWithinBits width = some large.capacity := by
  have hle : small.capacity ≤ large.capacity := capacity_le_iff.2 h.bulk_le
  refine ⟨hle, ⟨fun heq => ?_, fun hback => ?_⟩, fun width hfound => ?_⟩
  · exact h.symm_of_bulk_le (capacity_le_iff.1 heq.ge)
  · exact hle.antisymm (capacity_le_iff.2 hback.bulk_le)
  · obtain ⟨n, hlarge⟩ := Option.isSome_iff_exists.1 hfound
    obtain ⟨hheld, rfl⟩ := capacityWithinBits_eq_some_iff.1 hlarge
    have hbulk := h.bulk_le
    exact ⟨capacityWithinBits_eq_some_iff.2 ⟨by omega, rfl⟩, hlarge⟩

/-- An order that has a size, and tags. -/
def tagged : BuilderSpec where
  name := "OrderBuilder"
  scope := "app"
  target := "app::Order"
  normal := [⟨"size", "u64", .settable, .anywhere⟩]
  collections := [⟨"tags", "Vec<Tag>", .collection, .anywhere⟩]
  normal_settable := by decide
  normal_ascends := by decide +kernel
  collections_collection := by decide
  collections_ascends := by decide +kernel

/-- An order with a zone, labels and a list of sizes, whose name is shorter
but has no fewer bytes. -/
def labelled : BuilderSpec where
  name := "OrderBuilder"
  scope := "app"
  target := "app::Order"
  normal := [⟨"zone", "Tz", .settable, .anywhere⟩]
  collections := [⟨"labels", "Vec<String>", .collection, .anywhere⟩,
    ⟨"maß", "Vec<u64>", .collection, .anywhere⟩]
  normal_settable := by decide
  normal_ascends := by decide +kernel
  collections_collection := by decide
  collections_ascends := by decide +kernel

/-- The size goes behind the labels, which the tags take, and the zone is left
over. -/
theorem capacity_strictMono_of_crossing :
    tagged.FitsIn labelled ∧ ¬ labelled.FitsIn tagged ∧
      tagged.capacityWithinBits 64 = some 2290 ∧
      labelled.capacityWithinBits 64 = some 2905 := by
  have hfits : tagged.FitsIn labelled := by
    have hplace : (![2, 1] : Fin 2 → Fin 3).Injective := by decide
    refine ⟨by decide, by decide, _, hplace, fun (i : Fin 2) => ?_⟩
    match i with
    | 0 => exact ⟨by decide, by decide, by decide⟩
    | 1 => exact ⟨by decide, by decide, by decide⟩
  obtain ⟨-, hback, hmachine⟩ := capacity_strictMono hfits
  have hsmall : tagged.capacity = 2290 := by decide
  have hlarge : labelled.capacity = 2905 := by decide
  obtain ⟨hfound, hfound'⟩ := hmachine 64 (by decide)
  exact ⟨hfits, fun h => absurd (hback.2 h) (by omega), hsmall ▸ hfound, hlarge ▸ hfound'⟩

end BuilderSpec

end BuilderForge

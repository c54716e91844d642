import BuilderForge.Proofs.Listing.Order
import BuilderForge.Spec

/-!
# A specification has one form

A specification forgets how its members came: it parts them by kind and sorts
each part. Sorting by name alone would leave members with one name in the
order in which they were found; they are compared by all that they are
(`Member.compare_eq`), so two lists of members give one specification exactly
if they are rearrangements of each other (`one_form_for_members`).

A specification is in turn made of its own members
(`BuilderSpec.ofMembers_members`), so what is known of them is known of it.
-/

namespace BuilderForge

open Std

namespace Member

/-- **Members are compared field by field**, first by name. A collection is a
member without a setter, so the setter decides nothing that the kind has not
decided. -/
theorem compare_eq (a b : Member) : compare a b =
    (compare a.name b.name).then ((compare a.typeName b.typeName).then
      ((compare a.isCollection b.isCollection).then
        ((compare a.hasPublicSetter b.hasPublicSetter).then
          (compare a.visibility b.visibility)))) := by
  have hkind : ∀ k l : MemberKind, compare k l =
      (compare (decide (k = .collection)) (decide (l = .collection))).then
        (compare (!decide (k = .collection)) (!decide (l = .collection))) := by
    intro k l
    cases k <;> cases l <;> rfl
  have hlex : compare a b = (compare a.name b.name).then ((compare a.typeName b.typeName).then
      ((compare a.kind b.kind).then (compare a.visibility b.visibility))) := rfl
  rw [hlex, hkind, Ordering.then_assoc]
  rfl

/-- Where names are equal, the other fields decide. -/
theorem compare_name_then (a b : Member) :
    (compare a.name b.name).then (compare a b) = compare a b := by
  rw [compare_eq]
  cases compare a.name b.name <;> rfl

/-- Members that ascend do so by name. -/
theorem isLE_compare_name {a b : Member} (h : (compare a b).isLE) :
    (compare a.name b.name).isLE := by
  rw [compare_eq] at h
  cases hname : compare a.name b.name with
  | lt => rfl
  | eq => rfl
  | gt => rw [hname] at h; cases h

/-- Whether a member stands before another one, or could: by name, and by all
fields where the names are equal. -/
def precedes (a b : Member) : Bool :=
  ((compare a.name b.name).then (compare a b)).isLE

/-- **Sorting by name, and by all fields where names are equal**, is sorting
by all fields. -/
theorem mergeSort_precedes (members : List Member) :
    members.mergeSort precedes = ascending members := by
  have hprecedes : precedes = fun a b : Member => (compare a b).isLE := by
    funext a b
    rw [precedes, compare_name_then]
  rw [hprecedes]
  rfl

end Member

/-- **The members of a list are parted by kind**, and each part is in the
order of names. -/
structure BuilderSpec.Parts (spec : BuilderSpec) (members : List Member) : Prop where
  /-- No member is lost, and none is added. -/
  all : (spec.normal ++ spec.collections).Perm members
  /-- The first part has the members that are no collections. -/
  normal : spec.normal.Perm (members.filter fun m => !m.isCollection)
  /-- The second part has the collections. -/
  collections : spec.collections.Perm (members.filter Member.isCollection)
  /-- Names do not descend, -/
  normal_ascends : spec.normal.Pairwise fun a b => (compare a.name b.name).isLE
  collections_ascends : spec.collections.Pairwise fun a b => (compare a.name b.name).isLE
  /-- and all fields decide where they are equal. -/
  normal_sorted : spec.normal = (members.filter fun m => !m.isCollection).mergeSort Member.precedes
  collections_sorted :
    spec.collections = (members.filter Member.isCollection).mergeSort Member.precedes

namespace BuilderSpec

variable {name scope target : String} {members others : List Member}

/-- A member is a collection, or else it is assigned as a whole. -/
theorem decide_settable (m : Member) : decide (m.kind = .settable) = !m.isCollection := by
  obtain ⟨_, _, kind, _⟩ := m
  cases kind <;> rfl

/-- The first part is the members that are no collections, sorted, -/
theorem normal_ofMembers : (ofMembers name scope target members).normal =
    ascending (members.filter fun m => !m.isCollection) := by
  simp only [ofMembers, decide_settable]

/-- and the second part is the collections, sorted. -/
theorem collections_ofMembers : (ofMembers name scope target members).collections =
    ascending (members.filter Member.isCollection) := rfl

/-- Parting only rearranges. -/
theorem members_ofMembers_perm : (ofMembers name scope target members).members.Perm members := by
  have hnormal : (ascending (members.filter fun m => !m.isCollection)).Perm
      (members.filter fun m => !m.isCollection) := ascendingBy_perm id _
  have hcollections : (ascending (members.filter Member.isCollection)).Perm
      (members.filter Member.isCollection) := ascendingBy_perm id _
  rw [BuilderSpec.members, normal_ofMembers, collections_ofMembers]
  exact (hnormal.append hcollections).trans
    (List.perm_append_comm.trans (List.filter_append_perm _ _))

/-- Specifications with the same fields are the same. -/
theorem eq_of_fields {spec other : BuilderSpec} (hname : spec.name = other.name)
    (hscope : spec.scope = other.scope) (htarget : spec.target = other.target)
    (hnormal : spec.normal = other.normal) (hcollections : spec.collections = other.collections) :
    spec = other := by
  cases spec
  cases other
  cases hname
  cases hscope
  cases htarget
  cases hnormal
  cases hcollections
  rfl

/-- **The order in which members came leaves no trace.** -/
theorem ofMembers_congr (h : members.Perm others) :
    ofMembers name scope target members = ofMembers name scope target others :=
  eq_of_fields rfl rfl rfl (ascending_congr (h.filter _)) (ascending_congr (h.filter _))

/-- A specification has one form, and that is the one with its members. -/
theorem ofMembers_members (spec : BuilderSpec) :
    ofMembers spec.name spec.scope spec.target spec.members = spec := by
  have hnormal : spec.members.filter (fun m => m.kind = .settable) = spec.normal := by
    rw [members, List.filter_append,
      List.filter_eq_self.2 fun m hm => by simpa using spec.normal_settable m hm,
      List.filter_eq_nil_iff.2 fun m hm => by simp [spec.collections_collection m hm],
      List.append_nil]
  have hcollections : spec.members.filter (fun m => m.kind = .collection) = spec.collections := by
    rw [members, List.filter_append,
      List.filter_eq_nil_iff.2 fun m hm => by simp [spec.normal_settable m hm],
      List.filter_eq_self.2 fun m hm => by simpa using spec.collections_collection m hm,
      List.nil_append]
  refine eq_of_fields rfl rfl rfl ?_ ?_
  · exact (congrArg ascending hnormal).trans (ascending_eq_self spec.normal_ascends)
  · exact (congrArg ascending hcollections).trans (ascending_eq_self spec.collections_ascends)

/-- **Two lists of members give one specification exactly if they are
rearrangements** of each other, repetitions counted; and the specification
has the members of the list, parted by kind and in the order of names. -/
theorem one_form_for_members (name scope target : String) (members others : List Member) :
    (ofMembers name scope target members = ofMembers name scope target others ↔
        members.Perm others) ∧
      (ofMembers name scope target members).Parts members := by
  refine ⟨⟨fun h => ?_, ofMembers_congr⟩, ?_⟩
  · have hmembers : (ofMembers name scope target others).members.Perm members :=
      h ▸ members_ofMembers_perm
    exact hmembers.symm.trans members_ofMembers_perm
  · exact
      { all := members_ofMembers_perm
        normal := normal_ofMembers ▸ ascendingBy_perm id _
        collections := collections_ofMembers ▸ ascendingBy_perm id _
        normal_ascends := (normal_ascends _).imp Member.isLE_compare_name
        collections_ascends := (collections_ascends _).imp Member.isLE_compare_name
        normal_sorted := by rw [normal_ofMembers, Member.mergeSort_precedes]
        collections_sorted := by rw [collections_ofMembers, Member.mergeSort_precedes] }

end BuilderSpec

end BuilderForge

import BuilderForge.Proofs.Listing.Keys
import BuilderForge.Proofs.Provider.Walk
import BuilderForge.Provider.Extraction

/-!
# Members along the bases

Along the bases of a type a name can be declared many times, and the first
declaration says what it means: the most derived type comes first, and within
a type the order of declaration. That holds also where the first declaration
is of a member that no builder can give a value; the name is then taken, and
what a base declares under it is hidden (`Collects.hidden`).

One can as well read declaration by declaration and keep two sets, the full
names of the types and the names of the members that were met
(`Catalog.readFrom`). One step of that keeps what a reading stands for
(`Reading.StandsFor.read`), and so the whole of it gives the same members
(`kept_readFrom`).
-/

namespace BuilderForge

/-! ## What a builder can do with a member -/

/-- **What a member is to a builder**: with a public setter it is settable;
without a setter it is a collection, if elements can be appended to it; and
else it is nothing. -/
inductive MemberInfo.SeenAs (info : MemberInfo) : Member → Prop
  | settable : info.setter = some .anywhere →
      info.SeenAs ⟨info.name, info.typeName, .settable, info.visibility⟩
  | collection : info.setter = none → info.isCollectionType = true →
      info.SeenAs ⟨info.name, info.typeName, .collection, info.visibility⟩

namespace MemberInfo

variable {info : MemberInfo} {member : Member}

/-- A member keeps its name. -/
theorem SeenAs.name_eq (h : info.SeenAs member) : member.name = info.name := by
  cases h <;> rfl

/-- The model of a member is what it is to a builder. -/
theorem model?_eq_some_iff : info.model? = some member ↔ info.SeenAs member := by
  constructor
  · intro h
    unfold model? at h
    split at h
    · next hsetter =>
      split at h
      · next hcollection =>
        obtain rfl := Option.some.inj h
        exact .collection hsetter hcollection
      · cases h
    · next hsetter =>
      obtain rfl := Option.some.inj h
      exact .settable hsetter
    · cases h
  · rintro (hsetter | ⟨hsetter, hcollection⟩)
    · rw [model?, hsetter]
    · rw [model?, hsetter]
      exact if_pos hcollection

end MemberInfo

/-! ## The members that count -/

/-- **The members collected from declarations**, in whose order the more
derived come first. -/
structure Collects (declared : List MemberInfo) (members : List Member) : Prop where
  /-- A member is what the first declaration of its name is to a builder. -/
  found : ∀ member, member ∈ members ↔
    ∃ info, declared.find? (fun other => other.name = member.name) = some info ∧
      info.SeenAs member
  names_once : (members.map Member.name).Nodup
  /-- Names come in the order of their first declarations. -/
  ordered : members.Pairwise fun a b =>
    (declared.map MemberInfo.name).idxOf a.name < (declared.map MemberInfo.name).idxOf b.name
  /-- A name is not there at all if its first declaration is nothing to a
  builder, whatever the later ones are. -/
  hidden : ∀ info, declared.find? (fun other => other.name = info.name) = some info →
    (∀ member, ¬ info.SeenAs member) → info.name ∉ members.map Member.name

/-- A member is kept exactly if the first declaration of its name is of it. -/
theorem mem_filterMap_model? {declared : List MemberInfo} {member : Member} :
    member ∈ (firstBy MemberInfo.name declared).filterMap MemberInfo.model? ↔
      ∃ info, declared.find? (fun other => other.name = member.name) = some info ∧
        info.SeenAs member := by
  simp only [List.mem_filterMap, mem_firstBy_iff, MemberInfo.model?_eq_some_iff]
  constructor
  · rintro ⟨info, hfirst, hseen⟩
    exact ⟨info, hseen.name_eq ▸ hfirst, hseen⟩
  · rintro ⟨info, hfirst, hseen⟩
    exact ⟨info, hseen.name_eq ▸ hfirst, hseen⟩

/-- **The members that count are collected.** -/
theorem collects_firstBy (declared : List MemberInfo) :
    Collects declared ((firstBy MemberInfo.name declared).filterMap MemberInfo.model?) := by
  have hordered : ((firstBy MemberInfo.name declared).filterMap MemberInfo.model?).Pairwise
      fun a b => (declared.map MemberInfo.name).idxOf a.name <
        (declared.map MemberInfo.name).idxOf b.name := by
    refine List.pairwise_filterMap.2
      ((pairwise_idxOf_firstBy MemberInfo.name declared).imp fun {a b} hlt c hc d hd => ?_)
    rwa [(MemberInfo.model?_eq_some_iff.1 hc).name_eq, (MemberInfo.model?_eq_some_iff.1 hd).name_eq]
  have hnames : (((firstBy MemberInfo.name declared).filterMap MemberInfo.model?).map
      Member.name).Nodup := by
    refine List.pairwise_map.2 (hordered.imp fun {a b} hlt heq => ?_)
    rw [heq] at hlt
    exact Nat.lt_irrefl _ hlt
  exact
    { found := fun _ => mem_filterMap_model?
      names_once := hnames
      ordered := hordered
      hidden := fun info hfirst hnone hname => by
        obtain ⟨member, hmember, hname⟩ := List.mem_map.1 hname
        obtain ⟨found, hfound, hseen⟩ := mem_filterMap_model?.1 hmember
        rw [hname, hfirst] at hfound
        obtain rfl := Option.some.inj hfound
        exact hnone member hseen }

/-! ## Reading declaration by declaration -/

/-- What was read so far. -/
structure Reading where
  /-- The names that were met. -/
  met : List String
  /-- The members that a builder can give a value. -/
  kept : List Member

namespace Reading

/-- Reads a member, which counts if its name is new. -/
def read (reading : Reading) (info : MemberInfo) : Reading :=
  if info.name ∈ reading.met then reading
  else ⟨info.name :: reading.met, reading.kept ++ info.model?.toList⟩

/-- Reads the members that are declared on a type. -/
def readType (reading : Reading) (type : TypeInfo) : Reading :=
  type.members.foldl read reading

/-- **What a reading stands for**: it has met the names that are declared so
far, and kept the members that count. -/
structure StandsFor (reading : Reading) (declared : List MemberInfo) : Prop where
  met : ∀ name, name ∈ reading.met ↔ name ∈ declared.map MemberInfo.name
  kept : reading.kept = (firstBy MemberInfo.name declared).filterMap MemberInfo.model?

namespace StandsFor

variable {reading : Reading} {declared : List MemberInfo}

/-- Nothing was read at first. -/
theorem empty : StandsFor ⟨[], []⟩ [] :=
  ⟨fun _ => Iff.rfl, rfl⟩

/-- **One more member** is one more declaration. -/
theorem read (h : reading.StandsFor declared) (info : MemberInfo) :
    (reading.read info).StandsFor (declared ++ [info]) := by
  have hfirst : firstBy MemberInfo.name (declared ++ [info]) =
      firstBy MemberInfo.name declared ++
        [info].filter fun other => other.name ∉ declared.map MemberInfo.name :=
    firstBy_append declared [info]
  unfold Reading.read
  by_cases hmet : info.name ∈ reading.met
  · -- the name was met, so it is declared already and no new one counts
    have hdeclared := (h.met info.name).1 hmet
    rw [if_pos hmet]
    refine ⟨fun name => ?_, ?_⟩
    · rw [h.met, List.map_append, List.mem_append]
      refine (or_iff_left_of_imp fun hname => ?_).symm
      rw [List.map_singleton, List.mem_singleton] at hname
      rwa [hname]
    · rw [h.kept, hfirst, List.filter_cons_of_neg (by simpa using hdeclared), List.filter_nil,
        List.append_nil]
  · have hdeclared := mt (h.met info.name).2 hmet
    rw [if_neg hmet]
    refine ⟨fun name => ?_, ?_⟩
    · rw [List.mem_cons, h.met, List.map_append, List.mem_append, List.map_singleton,
        List.mem_singleton]
      exact or_comm
    · rw [h.kept, hfirst, List.filter_cons_of_pos (by simpa using hdeclared), List.filter_nil,
        List.filterMap_append]
      cases hmodel : info.model? <;> simp [hmodel]

/-- So are the members of a type, -/
theorem foldl_read (h : reading.StandsFor declared) (infos : List MemberInfo) :
    (infos.foldl Reading.read reading).StandsFor (declared ++ infos) := by
  induction infos generalizing reading declared with
  | nil => rwa [List.append_nil]
  | cons info rest ih =>
    rw [List.append_cons]
    exact ih (h.read info)

/-- and those of one type after the other. -/
theorem foldl_readType (h : reading.StandsFor declared) (types : List TypeInfo) :
    (types.foldl readType reading).StandsFor (declared ++ types.flatMap TypeInfo.members) := by
  induction types generalizing reading declared with
  | nil => rwa [List.flatMap_nil, List.append_nil]
  | cons type rest ih =>
    rw [List.flatMap_cons, ← List.append_assoc]
    exact ih (h.foldl_read type.members)

end StandsFor

end Reading

namespace Catalog

/-- Reads type after type along the bases, up to the first whose full name
was seen before. -/
def readFrom (catalog : Catalog) (seen : List String) (reading : Reading) (next : Option Nat) :
    Reading :=
  match h : next.bind (catalog[·]?) with
  | none => reading
  | some type =>
    if hseen : type.fullName ∈ seen then reading
    else
      have : catalog.unseen (type.fullName :: seen) < catalog.unseen seen :=
        unseen_lt (mem_of_next h) hseen
      readFrom catalog (type.fullName :: seen) (reading.readType type) type.base
  termination_by catalog.unseen seen

/-- The types that are read are those of the walk. -/
theorem readFrom_eq_foldl (catalog : Catalog) (seen : List String) (reading : Reading)
    (next : Option Nat) : catalog.readFrom seen reading next =
      (catalog.chainFrom seen next).foldl Reading.readType reading := by
  fun_induction readFrom catalog seen reading next with
  | case1 seen reading next hnone => rw [chainFrom_of_none hnone, List.foldl_nil]
  | case2 seen reading next type hsome hseen =>
    rw [chainFrom_of_some hsome, if_pos hseen, List.foldl_nil]
  | case3 seen reading next type hsome hseen _ ih =>
    rw [chainFrom_of_some hsome, if_neg hseen, List.foldl_cons, ih]

/-- **Reading declaration by declaration gives the same members.** -/
theorem kept_readFrom (catalog : Catalog) (index : Nat) :
    (catalog.readFrom [] ⟨[], []⟩ (some index)).kept = catalog.collect index := by
  rw [readFrom_eq_foldl]
  exact (Reading.StandsFor.empty.foldl_readType _).kept

/-- **The members of a type are collected along its bases**: those types are
visited that come before the first full name that repeats; of their members
the first of each name counts, also where it is nothing to a builder; and
that is what reading declaration by declaration gives, which ends like the
walk does. -/
theorem members_collected (catalog : Catalog) (index : Nat) :
    catalog.Visits index (catalog.chain index) ∧
      Collects ((catalog.chain index).flatMap TypeInfo.members) (catalog.collect index) ∧
      (catalog.readFrom [] ⟨[], []⟩ (some index)).kept = catalog.collect index :=
  ⟨visits_chain catalog index, collects_firstBy _, kept_readFrom catalog index⟩

/-- Two types that are each other's base: the name that is read-only on the
first one hides the one that the second one could set. -/
example : collect
    [⟨"app::Leaf", [⟨"name", "String", none, .anywhere, false⟩,
        ⟨"id", "u64", some .anywhere, .anywhere, false⟩], some 1, false⟩,
      ⟨"app::Root", [⟨"name", "String", some .anywhere, .anywhere, false⟩,
        ⟨"tags", "Vec<String>", none, .inCrate, true⟩], some 0, false⟩] 0 =
    [⟨"id", "u64", .settable, .anywhere⟩, ⟨"tags", "Vec<String>", .collection, .inCrate⟩] := by
  cbv

end Catalog

end BuilderForge

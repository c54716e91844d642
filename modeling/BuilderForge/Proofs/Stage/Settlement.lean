import BuilderForge.Proofs.Listing.Order
import BuilderForge.Proofs.Listing.Stability
import BuilderForge.Proofs.Stage.Live
import BuilderForge.Stage.Settlement

/-!
# Settled runs, key by key

Settling works through the results one after the other and uses up what it
finds. Where no two results share a key, the order of that work does not
matter, and everything it leaves behind can be said of one key at a time:
the outputs (`mem_settledOutputs`), the live ones among them
(`livePairs_settled`), and what is remembered (`settledTable_of_complete`,
`settledTable_of_cancelled`).
-/

namespace BuilderForge

open Std

variable {κ ω : Type}

namespace Finished

/-- The keys that have values when the results are settled, with these. -/
def kept (results : List (Finished κ ω)) : List (κ × ω) :=
  results.filterMap fun finished => finished.value.map fun value => (finished.key, value)

theorem mem_kept {results : List (Finished κ ω)} {pair : κ × ω} :
    pair ∈ kept results ↔
      ∃ finished ∈ results, finished.key = pair.1 ∧ finished.value = some pair.2 := by
  obtain ⟨key, value⟩ := pair
  simp only [kept, List.mem_filterMap, Option.map_eq_some_iff, Prod.mk.injEq]
  constructor
  · rintro ⟨finished, hmem, _, hvalue, hkey, rfl⟩
    exact ⟨finished, hmem, hkey, hvalue⟩
  · rintro ⟨finished, hmem, hkey, hvalue⟩
    exact ⟨finished, hmem, value, hvalue, hkey, rfl⟩

/-- A result without a value keeps nothing. -/
theorem kept_cons_of_none {finished : Finished κ ω} {rest : List (Finished κ ω)}
    (h : finished.value = none) : kept (finished :: rest) = kept rest := by
  rw [kept, List.filterMap_cons, h]
  rfl

/-- A result with a value keeps it for its key. -/
theorem kept_cons_of_some {finished : Finished κ ω} {rest : List (Finished κ ω)} {value : ω}
    (h : finished.value = some value) :
    kept (finished :: rest) = (finished.key, value) :: kept rest := by
  rw [kept, List.filterMap_cons, h]
  rfl

/-- The keys with values are keys of results. -/
theorem keys_kept_sublist (results : List (Finished κ ω)) :
    ((kept results).map Prod.fst).Sublist (results.map key) := by
  refine map_filterMap_sublist (fun finished pair hpair => ?_) results
  obtain ⟨value, -, rfl⟩ := Option.map_eq_some_iff.1 hpair
  rfl

/-- An output belongs to the key of its result. -/
theorem key_of_output? [DecidableEq ω] {old : Option ω} {finished : Finished κ ω}
    {output : StageOutput κ ω} (h : finished.output? old = some output) :
    output.key = finished.key := by
  unfold output? at h
  split at h
  · cases h
    rfl
  · obtain ⟨value, -, rfl⟩ := Option.map_eq_some_iff.1 h
    rfl

/-- A computed value never counts as removed. -/
theorem reasonAgainst_ne_removed [DecidableEq ω] (old : Option ω) (value : ω) :
    reasonAgainst old value ≠ .removed := by
  unfold reasonAgainst
  split
  · simp
  · split <;> simp

/-- Nor as recalled. -/
theorem reasonAgainst_ne_cached [DecidableEq ω] (old : Option ω) (value : ω) :
    reasonAgainst old value ≠ .cached := by
  unfold reasonAgainst
  split
  · simp
  · split <;> simp

/-- **An output is live exactly if its result has a value**, and it has the
value of its result. -/
theorem isLive_of_output? [DecidableEq ω] {old : Option ω} {finished : Finished κ ω}
    {output : StageOutput κ ω} (h : finished.output? old = some output) :
    finished.value = if output.isLive then some output.value else none := by
  unfold output? at h
  split at h
  · next value hvalue =>
    have hlive : output.isLive = true := by
      cases h
      simp only [StageOutput.isLive, decide_eq_true_eq]
      split
      · simp
      · exact reasonAgainst_ne_removed old value
    rw [hlive, hvalue, if_pos rfl]
    cases h
    rfl
  · next hvalue =>
    obtain ⟨value, -, rfl⟩ := Option.map_eq_some_iff.1 h
    rw [hvalue]
    rfl

variable [Ord κ] [TransOrd κ] [LawfulEqOrd κ]

/-- What is left belongs to keys without a result. -/
theorem getElem?_leftover_eq_some_iff {previous : Table κ ω} {results : List (Finished κ ω)}
    {k : κ} {value : ω} :
    (leftover previous results)[k]? = some value ↔
      k ∉ results.map key ∧ previous[k]? = some value := by
  induction results generalizing previous with
  | nil => simp [leftover]
  | cons finished rest ih =>
    rw [leftover, ih, ExtTreeMap.getElem?_erase, List.map_cons, List.mem_cons, not_or]
    by_cases hkey : compare finished.key k = .eq
    · have : finished.key = k := LawfulEqOrd.eq_of_compare hkey
      simp [this]
    · have : k ≠ finished.key := fun heq => hkey (by rw [heq]; exact ReflOrd.compare_self)
      simp [hkey, this]

/-- Settling values into a table leaves the keys without one alone. -/
theorem getElem?_foldl_addTo_of_not_mem {results : List (Finished κ ω)} {table : Table κ ω}
    {k : κ} (h : k ∉ results.map key) : (results.foldl addTo table)[k]? = table[k]? := by
  induction results generalizing table with
  | nil => rfl
  | cons finished rest ih =>
    rw [List.map_cons, List.mem_cons, not_or] at h
    rw [List.foldl_cons, ih h.2, addTo]
    split
    · rw [ExtTreeMap.getElem?_insert,
        if_neg fun hcmp => h.1 (LawfulEqOrd.eq_of_compare hcmp).symm]
    · rfl

/-- Settled values, one key at a time: the table gives what the results
give, and else what it gave before. -/
theorem getElem?_foldl_addTo {results : List (Finished κ ω)} (h : (results.map key).Nodup)
    {table : Table κ ω} {k : κ} {value : ω} :
    (results.foldl addTo table)[k]? = some value ↔
      (k, value) ∈ kept results ∨ (∀ v, (k, v) ∉ kept results) ∧ table[k]? = some value := by
  induction results generalizing table with
  | nil => simp [kept]
  | cons finished rest ih =>
    rw [List.map_cons, List.nodup_cons] at h
    by_cases hkey : k = finished.key
    · -- the first result decides, for no later one has its key
      subst hkey
      have hrest : ∀ v, (finished.key, v) ∉ kept rest := fun v hv =>
        h.1 ((keys_kept_sublist rest).subset (List.mem_map_of_mem (f := Prod.fst) hv))
      rw [List.foldl_cons, getElem?_foldl_addTo_of_not_mem h.1, addTo]
      cases hvalue : finished.value with
      | none => simp [kept_cons_of_none hvalue, hrest]
      | some v => simp [kept_cons_of_some hvalue, hrest, eq_comm]
    · have hsame : ∀ v, (k, v) ∈ kept (finished :: rest) ↔ (k, v) ∈ kept rest := by
        intro v
        cases hvalue : finished.value with
        | none => rw [kept_cons_of_none hvalue]
        | some _ => simp [kept_cons_of_some hvalue, hkey]
      rw [List.foldl_cons, ih h.2, addTo]
      simp only [hsame]
      cases finished.value with
      | none => rfl
      | some v =>
        rw [ExtTreeMap.getElem?_insert,
          if_neg fun hcmp => hkey (LawfulEqOrd.eq_of_compare hcmp).symm]

/-- The values by key are those of the results. -/
theorem getElem?_values_eq_some_iff {results : List (Finished κ ω)}
    (h : (results.map key).Nodup) {k : κ} {value : ω} :
    (values results)[k]? = some value ↔ (k, value) ∈ kept results := by
  rw [values, getElem?_foldl_addTo h]
  simp

end Finished

/-! ## The outputs of a run -/

section Outputs

variable [Ord κ] [TransOrd κ] {previous : Table κ ω} {results : List (Finished κ ω)}

/-- The values of a table give no key twice. -/
theorem nodup_keys_removedOutputs (table : Table κ ω) :
    ((removedOutputs table).map StageOutput.key).Nodup := by
  rw [removedOutputs, List.map_map]
  refine List.pairwise_map.2 (table.ordered_keys_toList.imp fun {a b} hab heq => ?_)
  rw [show a.1 = b.1 from heq, ReflOrd.compare_self] at hab
  cases hab

theorem mem_removedOutputs [LawfulEqOrd κ] {table : Table κ ω} {output : StageOutput κ ω} :
    output ∈ removedOutputs table ↔
      output.reason = .removed ∧ table[output.key]? = some output.value := by
  obtain ⟨key, value, reason⟩ := output
  simp only [removedOutputs, List.mem_map, Prod.exists, StageOutput.mk.injEq,
    ExtTreeMap.mem_toList_iff_getElem?_eq_some]
  constructor
  · rintro ⟨k, v, hkv, rfl, rfl, rfl⟩
    exact ⟨rfl, hkv⟩
  · rintro ⟨rfl, hkv⟩
    exact ⟨key, value, hkv, rfl, rfl, rfl⟩

variable [DecidableEq ω]

namespace Finished

/-- The live outputs of results are the values they keep. -/
theorem livePairs_outputs (previous : Table κ ω) (results : List (Finished κ ω)) :
    ((outputs previous results).filter StageOutput.isLive).map (fun o => (o.key, o.value)) =
      kept results := by
  induction results generalizing previous with
  | nil => rfl
  | cons finished rest ih =>
    rw [outputs, List.filter_append, List.map_append, ih]
    cases houtput : finished.output? previous[finished.key]? with
    | none =>
      have hvalue : finished.value = none := by
        unfold output? at houtput
        split at houtput
        · cases houtput
        · assumption
      rw [kept_cons_of_none hvalue]
      rfl
    | some output =>
      have hvalue := isLive_of_output? houtput
      cases hlive : output.isLive with
      | false =>
        rw [hlive] at hvalue
        simp [kept_cons_of_none hvalue, hlive]
      | true =>
        rw [hlive] at hvalue
        simp [kept_cons_of_some hvalue, hlive, key_of_output? houtput]

/-- The live outputs that are not recalled are those of results that are
not. -/
theorem countP_live_outputs (previous : Table κ ω) (results : List (Finished κ ω)) :
    ((outputs previous results).filter StageOutput.isLive).countP (fun o => o.reason ≠ .cached) =
      results.countP fun finished => finished.value.isSome && !finished.recalled := by
  induction results generalizing previous with
  | nil => rfl
  | cons finished rest ih =>
    rw [outputs, List.filter_append, List.countP_append, ih, List.countP_cons, Nat.add_comm]
    congr 1
    cases hvalue : finished.value with
    | none =>
      rw [output?, hvalue]
      cases previous[finished.key]? <;> simp [StageOutput.isLive]
    | some value =>
      rw [output?, hvalue]
      cases hrecalled : finished.recalled <;>
        simp [StageOutput.isLive, reasonAgainst_ne_removed, reasonAgainst_ne_cached]

variable [LawfulEqOrd κ]

/-- **Each result is settled on its own** where no two share a key: what an
earlier result uses up is never what a later one looks for. -/
theorem outputs_eq_filterMap (h : (results.map key).Nodup) :
    outputs previous results =
      results.filterMap fun finished => finished.output? previous[finished.key]? := by
  induction results generalizing previous with
  | nil => rfl
  | cons finished rest ih =>
    rw [List.map_cons, List.nodup_cons] at h
    have hrest : rest.filterMap (fun f => f.output? (previous.erase finished.key)[f.key]?) =
        rest.filterMap fun f => f.output? previous[f.key]? := by
      refine List.filterMap_congr fun f hf => ?_
      have hne : ¬compare finished.key f.key = .eq := fun hcmp =>
        h.1 (LawfulEqOrd.eq_of_compare hcmp ▸ List.mem_map_of_mem hf)
      rw [ExtTreeMap.getElem?_erase, if_neg hne]
    rw [outputs, ih h.2, hrest, List.filterMap_cons]
    cases finished.output? previous[finished.key]? <;> rfl

end Finished

variable [LawfulEqOrd κ] {complete : Bool}

/-- **The outputs of a run**, one by one: each result gives its own, and a
run that was not called off adds those of the keys without a result. -/
theorem mem_settledOutputs (h : (results.map Finished.key).Nodup) {output : StageOutput κ ω} :
    output ∈ settledOutputs previous results complete ↔
      (∃ finished ∈ results, finished.output? previous[finished.key]? = some output) ∨
      complete = true ∧ output.reason = .removed ∧ output.key ∉ results.map Finished.key ∧
        previous[output.key]? = some output.value := by
  rw [settledOutputs, mem_ascendingBy, List.mem_append, Finished.outputs_eq_filterMap h,
    List.mem_filterMap]
  cases complete with
  | false => simp
  | true =>
    rw [if_pos rfl, mem_removedOutputs, Finished.getElem?_leftover_eq_some_iff]
    simp

/-- The outputs of a run ascend strictly: no key has two. -/
theorem ascendsBy_settledOutputs (h : (results.map Finished.key).Nodup) :
    AscendsBy StageOutput.key (settledOutputs previous results complete) := by
  have hkeys : ((results.filterMap fun finished =>
      finished.output? previous[finished.key]?).map StageOutput.key).Sublist
      (results.map Finished.key) :=
    map_filterMap_sublist (fun _ _ => Finished.key_of_output?) results
  refine ascendsBy_ascendingBy ?_
  rw [Finished.outputs_eq_filterMap h, List.map_append]
  refine List.nodup_append.2 ⟨h.sublist hkeys, ?_, ?_⟩
  · cases complete with
    | false => exact List.nodup_nil
    | true => exact nodup_keys_removedOutputs _
  · -- what is left has no result, so it does not meet the outputs of results
    intro key hout _ hleft rfl
    cases complete with
    | false => cases hleft
    | true =>
      obtain ⟨output, hmem, rfl⟩ := List.mem_map.1 hleft
      have := (mem_removedOutputs.1 hmem).2
      rw [Finished.getElem?_leftover_eq_some_iff] at this
      exact this.1 (hkeys.subset hout)

end Outputs

/-! ## The live outputs of a run -/

section LiveOutputs

variable [Ord κ] [TransOrd κ] [DecidableEq ω]
variable {previous : Table κ ω} {results : List (Finished κ ω)} {complete : Bool}

/-- Among outputs that are not removed, those of the results are all, sorted:
the end of a run only adds removed ones. -/
theorem filter_settledOutputs {p : StageOutput κ ω → Bool}
    (hp : ∀ key value, p ⟨key, value, .removed⟩ = false) :
    (settledOutputs previous results complete).filter p =
      ascendingBy StageOutput.key ((Finished.outputs previous results).filter p) := by
  have hremoved : (if complete then removedOutputs (Finished.leftover previous results)
      else []).filter p = [] := by
    refine List.filter_eq_nil_iff.2 fun output hmem => ?_
    cases complete with
    | false => cases hmem
    | true =>
      obtain ⟨pair, -, rfl⟩ := List.mem_map.1 hmem
      simp [hp]
  rw [settledOutputs, ← ascendingBy_filter, List.filter_append, hremoved, List.append_nil]

/-- **The live outputs of a run are those of its results**, sorted. -/
theorem live_settledOutputs :
    (settledOutputs previous results complete).filter StageOutput.isLive =
      ascendingBy StageOutput.key
        ((Finished.outputs previous results).filter StageOutput.isLive) :=
  filter_settledOutputs fun _ _ => rfl

/-- **Their values are those of the results.** What the stage remembered has
no part in them, and it does not matter here whether results share keys. -/
theorem livePairs_settled :
    ((settledOutputs previous results complete).filter StageOutput.isLive).map
        (fun o => (o.key, o.value)) = ascendingBy Prod.fst (Finished.kept results) := by
  rw [live_settledOutputs, ← Finished.livePairs_outputs previous results]
  exact map_ascendingBy fun _ _ => rfl

end LiveOutputs

/-! ## What is remembered -/

section Remembered

variable [Ord κ] [TransOrd κ] [LawfulEqOrd κ]
variable {previous : Table κ ω} {results : List (Finished κ ω)} {key : κ} {value : ω}

/-- A run to the end leaves the values of its results and nothing else. -/
theorem settledTable_of_complete (h : (results.map Finished.key).Nodup) :
    (settledTable previous results true)[key]? = some value ↔
      (key, value) ∈ Finished.kept results := by
  rw [settledTable, if_pos rfl, Finished.getElem?_values_eq_some_iff h]

/-- A run that is called off keeps what it has no result for. -/
theorem settledTable_of_cancelled (h : (results.map Finished.key).Nodup) :
    (settledTable previous results false)[key]? = some value ↔
      (key, value) ∈ Finished.kept results ∨
        key ∉ results.map Finished.key ∧ previous[key]? = some value := by
  rw [settledTable, if_neg Bool.false_ne_true, ExtTreeMap.getElem?_union,
    ← Finished.getElem?_values_eq_some_iff h, ← Finished.getElem?_leftover_eq_some_iff]
  cases hvalue : (Finished.values results)[key]? with
  | none => simp
  | some v =>
    -- a value of a result is never among what is left
    have hkey : key ∈ results.map Finished.key := (Finished.keys_kept_sublist results).subset
      (List.mem_map_of_mem (f := Prod.fst) ((Finished.getElem?_values_eq_some_iff h).1 hvalue))
    simp [Finished.getElem?_leftover_eq_some_iff, hkey]

/-- **A run that is called off keeps a table that holds its results**: what
it settles is there, and what it does not settle it keeps. -/
theorem settledTable_eq_self (h : (results.map Finished.key).Nodup)
    (hheld : ∀ finished ∈ results,
      ∃ value, finished.value = some value ∧ previous[finished.key]? = some value) :
    settledTable previous results false = previous := by
  refine ExtTreeMap.ext_getElem? fun key => Option.ext fun value => ?_
  rw [settledTable_of_cancelled h, Finished.mem_kept]
  constructor
  · rintro (⟨finished, hfinished, hkey, hvalue⟩ | ⟨-, hvalue⟩)
    · obtain ⟨held, hresult, hprevious⟩ := hheld finished hfinished
      rw [← show finished.key = key from hkey, hprevious, ← hresult, hvalue]
    · exact hvalue
  · intro hvalue
    by_cases hmem : key ∈ results.map Finished.key
    · obtain ⟨finished, hfinished, rfl⟩ := List.mem_map.1 hmem
      obtain ⟨held, hresult, hprevious⟩ := hheld finished hfinished
      refine .inl ⟨finished, hfinished, rfl, ?_⟩
      rw [hresult, ← hprevious, hvalue]
    · exact .inr ⟨hmem, hvalue⟩

end Remembered

end BuilderForge

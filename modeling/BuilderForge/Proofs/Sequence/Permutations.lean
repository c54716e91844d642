import BuilderForge.Proofs.Sequence.Edits
import Mathlib.Algebra.BigOperators.Group.List.Basic
import Mathlib.NumberTheory.Multiplicity
import Mathlib.Tactic.LinearCombination

/-!
# Sequences in another order

The hash of a sequence depends on where its elements stand, but not on all of
it. Neighbouring places differ by the factor 31, so the hash is the sum of the
digests, which no permutation changes, and thirty times the hashes of all
proper beginnings (`contentHash_eq_beginnings`). Thirty is even: of what the
beginnings tell, the highest bit is lost.

So permutations may have one hash. When two elements change places, the hash
is blind to the highest bits of their digests, to one of them if they stand an
odd number of positions apart and to six or more otherwise (`blindBits`), and
sees all others (`contentHash_exchange_iff`). There are words whose digests
differ in no other bit (`permutation_with_equal_hash`).
-/

namespace BuilderForge

/-! ## Any permutation -/

section Beginnings

variable {α : Type} [Digestible α]

/-- The hashes of the proper beginnings of a sequence, added up. -/
def beginningsHash (items : List α) : UInt64 :=
  ((List.range items.length).map fun n => contentHash (items.take n)).sum

open scoped UInt64.CommRing

/-- One element more makes a proper beginning of the sequence itself. -/
theorem beginningsHash_concat (items : List α) (a : α) :
    beginningsHash (items ++ [a]) = beginningsHash items + contentHash items := by
  have htake : ∀ n ∈ List.range items.length, contentHash ((items ++ [a]).take n) =
      contentHash (items.take n) := by
    intro n hn
    rw [List.take_append_of_le_length (List.mem_range.1 hn).le]
  rw [beginningsHash, List.length_append, List.length_singleton, List.range_succ, List.map_append,
    List.sum_append, List.map_congr_left htake, beginningsHash]
  simp

/-- **The hash is the sum of the digests and thirty times the beginnings.** -/
theorem contentHash_eq_beginnings (items : List α) :
    contentHash items = (items.map digest).sum + 15 * (2 * beginningsHash items) := by
  induction items using List.reverseRecOn with
  | nil => rfl
  | append_singleton rest a ih =>
    -- the hash moves up by the factor 31: once more itself, and thirty times
    have hfactor : positionFactor = 1 + 15 * 2 := rfl
    have hsum : ((rest ++ [a]).map digest).sum = (rest.map digest).sum + digest a := by simp
    rw [contentHash_concat, beginningsHash_concat, hsum, hfactor]
    linear_combination ih

/-- **Permutations have one hash exactly if their beginnings tell the same**
but for the highest bit. -/
theorem contentHash_eq_iff_of_perm {first second : List α} (h : first.Perm second) :
    contentHash first = contentHash second ↔
      2 * beginningsHash first = 2 * beginningsHash second := by
  have hdigests : (first.map digest).sum = (second.map digest).sum := (h.map digest).sum_eq
  rw [contentHash_eq_beginnings first, contentHash_eq_beginnings second, hdigests, add_right_inj]
  exact mul_right_inj_of_odd rfl

end Beginnings

/-! ## Blind bits -/

open scoped UInt64.CommRing

/-- How many of the highest bits of their digests the hash is blind to, when
two elements change places that stand `distance` positions apart. -/
def blindBits (distance : Nat) : Nat :=
  if distance % 2 = 1 then 1 else padicValNat 2 distance + 5

/-- An odd power of 31 less one has a single factor of two: 31 is one less than
a multiple of 4, and so is each of its odd powers. -/
theorem exists_odd_half {distance : Nat} (h : Odd distance) :
    ∃ m, m % 2 = 1 ∧ 31 ^ distance - 1 = 2 * m := by
  have hmod : 31 ^ distance % 4 = 3 := by
    obtain ⟨k, rfl⟩ := h
    rw [pow_succ, pow_mul, Nat.mul_mod, Nat.pow_mod]
    norm_num
  exact ⟨2 * (31 ^ distance / 4) + 1, by omega, by omega⟩

/-- An even power of 31 less one has, beside those of the exponent, the five
factors of 32. -/
theorem padicValNat_pow_sub_one {distance : Nat} (h : distance ≠ 0) (heven : Even distance) :
    padicValNat 2 (31 ^ distance - 1) = padicValNat 2 distance + 5 := by
  have hpow := padicValNat.pow_two_sub_one (x := 31) (by omega) (by omega) h heven
  have h32 : padicValNat 2 (31 + 1) = 5 := padicValNat.prime_pow 5
  have h30 : padicValNat 2 (31 - 1) = 1 := by
    rw [show 31 - 1 = 2 * 15 from rfl, padicValNat.mul (by omega) (by omega),
      padicValNat.self (by omega), padicValNat.eq_zero_of_not_dvd (by omega)]
  omega

/-- What is left of a number without its factors of two is odd. -/
theorem exists_odd_of_padicValNat {n : Nat} (h : n ≠ 0) :
    ∃ m, m % 2 = 1 ∧ n = 2 ^ padicValNat 2 n * m := by
  obtain ⟨m, hm⟩ : 2 ^ padicValNat 2 n ∣ n := pow_padicValNat_dvd
  refine ⟨m, ?_, hm⟩
  by_contra hne
  obtain ⟨k, rfl⟩ : 2 ∣ m := by omega
  refine pow_succ_padicValNat_not_dvd (p := 2) h ⟨k, ?_⟩
  rwa [pow_succ, mul_assoc]

/-- So many factors of two has a power of 31 less one; the rest is odd. -/
theorem exists_odd_part {distance : Nat} (h : distance ≠ 0) :
    ∃ m, m % 2 = 1 ∧ 31 ^ distance - 1 = 2 ^ blindBits distance * m := by
  by_cases hodd : distance % 2 = 1
  · rw [blindBits, if_pos hodd, pow_one]
    exact exists_odd_half (Nat.odd_iff.2 hodd)
  · have hne : 31 ^ distance - 1 ≠ 0 := by
      have hlt : 1 < 31 ^ distance := Nat.one_lt_pow h (by omega)
      omega
    rw [blindBits, if_neg hodd, ← padicValNat_pow_sub_one h (Nat.even_iff.2 (by omega))]
    exact exists_odd_of_padicValNat hne

/-- A factor of an even and an odd part blinds a number to as many high bits
as the even part has factors of two. -/
theorem mul_modEq_two_pow_iff {m : Nat} (hm : m % 2 = 1) (k n u v : Nat) :
    2 ^ k * m * u ≡ 2 ^ k * m * v [MOD 2 ^ n] ↔ u ≡ v [MOD 2 ^ (n - k)] := by
  rw [mul_assoc, mul_assoc]
  rcases Nat.le_total k n with hle | hge
  · have hcoprime : Nat.Coprime (2 ^ (n - k)) m :=
      Nat.Coprime.pow_left _ (Nat.coprime_two_left.2 (Nat.odd_iff.2 hm))
    rw [← pow_mul_pow_sub 2 hle, Nat.ModEq.mul_left_cancel_iff' (by positivity)]
    exact ⟨Nat.ModEq.cancel_left_of_coprime hcoprime, Nat.ModEq.mul_left m⟩
  · -- nothing is left of either
    have hzero : ∀ w, 2 ^ k * (m * w) ≡ 0 [MOD 2 ^ n] := fun w =>
      Nat.modEq_zero_iff_dvd.2 ((pow_dvd_pow 2 hge).mul_right _)
    rw [Nat.sub_eq_zero_of_le hge, pow_zero]
    exact iff_of_true ((hzero u).trans (hzero v).symm) Nat.modEq_one

/-- Moving up by some positions, in numbers. -/
theorem toNat_mul_positionFactor_pow (x : UInt64) (n : Nat) :
    (x * positionFactor ^ n).toNat = 31 ^ n * x.toNat % 2 ^ 64 := by
  induction n with
  | zero =>
    have hlt := x.toNat_lt
    rw [pow_zero, mul_one, pow_zero, one_mul, Nat.mod_eq_of_lt hlt]
  | succ n ih =>
    have hfactor : positionFactor.toNat = 31 := rfl
    have hpow : 31 ^ (n + 1) * x.toNat = 31 ^ n * x.toNat * 31 := by ring
    rw [pow_succ, ← mul_assoc, UInt64.toNat_mul, ih, hfactor, hpow, Nat.mod_mul_mod]

/-- **Which words may change places**: moved up against each other, they come
to the same if they differ in the highest bits only. -/
theorem mul_pow_add_eq_iff {distance : Nat} (h : distance ≠ 0) (u v : UInt64) :
    u * positionFactor ^ distance + v = v * positionFactor ^ distance + u ↔
      u.toNat ≡ v.toNat [MOD 2 ^ (64 - blindBits distance)] := by
  obtain ⟨m, hm, hfactor⟩ := exists_odd_part h
  have hpos : 1 ≤ 31 ^ distance := Nat.one_le_pow _ _ (by omega)
  -- a word that moves up becomes as many more as the factor, less one, says
  have hnat : ∀ x y : UInt64, (x * positionFactor ^ distance + y).toNat =
      (2 ^ blindBits distance * m * x.toNat + (x.toNat + y.toNat)) % 2 ^ 64 := by
    intro x y
    have hmore : 31 ^ distance * x.toNat = 2 ^ blindBits distance * m * x.toNat + x.toNat := by
      rw [← hfactor, Nat.sub_mul, one_mul, Nat.sub_add_cancel (Nat.le_mul_of_pos_left _ hpos)]
    rw [UInt64.toNat_add, toNat_mul_positionFactor_pow, Nat.mod_add_mod, hmore, add_assoc]
  rw [← UInt64.toNat_inj, hnat u v, hnat v u, add_comm v.toNat, ← mul_modEq_two_pow_iff hm]
  exact Nat.ModEq.add_iff_right rfl

/-- **Two elements may change places** exactly if their digests agree in all
bits that the hash is not blind to. -/
theorem contentHash_exchange_iff {α : Type} [Digestible α] (before between after : List α)
    (a b : α) :
    contentHash (before ++ a :: between ++ b :: after) =
        contentHash (before ++ b :: between ++ a :: after) ↔
      (digest a).toNat ≡ (digest b).toNat [MOD 2 ^ (64 - blindBits (between.length + 1))] := by
  -- the two elements against each other, moved up, and what does not depend on them
  have hplaces : ∀ a b : α, contentHash (before ++ a :: between ++ b :: after) =
      (digest a * positionFactor ^ (between.length + 1) + digest b) *
          positionFactor ^ after.length +
        ((contentHash before * positionFactor ^ (between.length + 1) + contentHash between) *
          positionFactor ^ (after.length + 1) + contentHash after) := by
    intro a b
    rw [contentHash_append, contentHash_append, contentHash_cons, contentHash_cons,
      List.length_cons, List.length_cons]
    ring
  rw [hplaces, hplaces, add_left_inj, mul_positionFactor_pow_inj,
    mul_pow_add_eq_iff (Nat.succ_ne_zero _)]

/-- **Which permutations hash apart.** Two sequences of the same words, each
in an order of its own, hash apart exactly if the hashes of their beginnings
add up to different sums, the highest bit left aside. If they differ in that
two words have changed places, this is so exactly if the digests of the two
differ in a bit that the hash is not blind to. -/
theorem permuted_hash_ne_iff {first second : List UInt64} (h : first.Perm second) :
    (contentHash first ≠ contentHash second ↔
        2 * beginningsHash first ≠ 2 * beginningsHash second) ∧
      ∀ before between after x y, first = before ++ x :: between ++ y :: after →
        second = before ++ y :: between ++ x :: after →
        (contentHash first ≠ contentHash second ↔
          ¬ (digest x).toNat ≡ (digest y).toNat
            [MOD 2 ^ (64 - blindBits (between.length + 1))]) := by
  refine ⟨not_congr (contentHash_eq_iff_of_perm h), ?_⟩
  rintro before between after x y rfl rfl
  exact not_congr (contentHash_exchange_iff before between after x y)

/-- The word whose digest is the highest bit and nothing else. -/
def topWord : UInt64 := 13068779402265886720

/-- Two digits three positions apart hash apart when they change places: their
digests differ in more than the highest bit. -/
theorem permuted_hash_ne_of_digits :
    ([9, 1, 5, 7, 2] : List UInt64).Perm [9, 2, 5, 7, 1] ∧
      ¬ (digest (1 : UInt64)).toNat ≡ (digest (2 : UInt64)).toNat [MOD 2 ^ (64 - blindBits 3)] ∧
      contentHash ([9, 1, 5, 7, 2] : List UInt64) ≠
        contentHash ([9, 2, 5, 7, 1] : List UInt64) := by
  have hperm : ([9, 1, 5, 7, 2] : List UInt64).Perm [9, 2, 5, 7, 1] := by decide
  have hdigests : ¬ (digest (1 : UInt64)).toNat ≡ (digest (2 : UInt64)).toNat
      [MOD 2 ^ (64 - blindBits 3)] := by decide
  exact ⟨hperm, hdigests,
    ((permuted_hash_ne_iff hperm).2 [9] [5, 7] [] 1 2 rfl rfl).2 hdigests⟩

/-- The digest of zero is zero, so zero may change places with it: a
permutation that differs can have the same hash. -/
theorem permutation_with_equal_hash :
    [topWord, 0].Perm [0, topWord] ∧ [topWord, 0] ≠ [0, topWord] ∧
      contentHash [topWord, 0] = contentHash [0, topWord] :=
  ⟨.swap 0 topWord [], by decide, by decide⟩

end BuilderForge

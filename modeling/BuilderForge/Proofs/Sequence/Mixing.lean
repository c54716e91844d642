import BuilderForge.Sequence.Digest
import Mathlib.Data.Nat.ModEq
import Mathlib.Data.Nat.Prime.Basic
import Mathlib.Data.UInt

/-!
# Mixing words

The digest of a word loses nothing. An odd factor can be taken away again,
for it has no factor in common with the number of words
(`mul_right_inj_of_odd`), and turning a word parts it in two and puts the
parts together the other way (`toNat_rotate`). So two values have one digest
exactly if one word stands for both (`digest_inj`).

The factor between the positions of a sequence is odd as well: moving a hash
up by a position, or by many, can be undone (`mul_positionFactor_pow_inj`).
-/

namespace BuilderForge

variable {x y : UInt64}

/-! ## Odd factors -/

/-- **An odd factor can be taken away**, although products wrap. -/
theorem mul_right_inj_of_odd {c : UInt64} (hc : c.toNat % 2 = 1) : c * x = c * y ↔ x = y := by
  refine ⟨fun h => UInt64.toNat_inj.1 ?_, congrArg (c * ·)⟩
  have hmod : c.toNat * x.toNat ≡ c.toNat * y.toNat [MOD 2 ^ 64] := by
    rw [Nat.ModEq, ← UInt64.toNat_mul, ← UInt64.toNat_mul, h]
  have hcoprime : Nat.Coprime (2 ^ 64) c.toNat :=
    Nat.Coprime.pow_left 64 (Nat.coprime_two_left.2 (Nat.odd_iff.2 hc))
  have heq : x.toNat ≡ y.toNat [MOD 2 ^ 64] := Nat.ModEq.cancel_left_of_coprime hcoprime hmod
  exact Nat.ModEq.eq_of_lt_of_lt heq x.toNat_lt y.toNat_lt

/-- Moving up by one position can be undone. -/
theorem mul_positionFactor_inj : x * positionFactor = y * positionFactor ↔ x = y := by
  rw [UInt64.mul_comm x, UInt64.mul_comm y]
  exact mul_right_inj_of_odd rfl

/-- And so can moving up by any number of positions. -/
theorem mul_positionFactor_pow_inj (n : Nat) :
    x * positionFactor ^ n = y * positionFactor ^ n ↔ x = y := by
  induction n with
  | zero => rw [pow_zero, mul_one, mul_one]
  | succ n ih => rw [pow_succ, ← mul_assoc, ← mul_assoc, mul_positionFactor_inj, ih]

/-! ## Turning -/

/-- Turning puts the low bits of a word in front of the high ones. -/
theorem toNat_rotate (x : UInt64) :
    (rotate x).toNat = x.toNat % 2 ^ 38 * 2 ^ 26 + x.toNat / 2 ^ 38 := by
  have hlow : x.toNat % 2 ^ 38 * 2 ^ 26 = x.toNat * 2 ^ 26 % 2 ^ 64 := by omega
  have hhigh : x.toNat / 2 ^ 38 < 2 ^ 26 := by
    have hlt := x.toNat_lt
    omega
  have hor := Nat.shiftLeft_add_eq_or_of_lt hhigh (x.toNat % 2 ^ 38)
  rw [Nat.shiftLeft_eq] at hor
  rw [hor, hlow, rotate, UInt64.toNat_or, UInt64.toNat_shiftLeft, UInt64.toNat_shiftRight,
    Nat.shiftLeft_eq, Nat.shiftRight_eq_div_pow]
  rfl

/-- Nothing is lost by it. -/
theorem rotate_inj : rotate x = rotate y ↔ x = y := by
  refine ⟨fun h => UInt64.toNat_inj.1 ?_, congrArg rotate⟩
  have hnat : (rotate x).toNat = (rotate y).toNat := by rw [h]
  rw [toNat_rotate, toNat_rotate] at hnat
  have hx := x.toNat_lt
  have hy := y.toNat_lt
  omega

/-! ## Digests -/

/-- **Mixing loses nothing**: it spreads by an odd factor, then turns. -/
theorem mix_inj : mix x = mix y ↔ x = y := by
  rw [mix, mix, rotate_inj, UInt64.mul_comm x, UInt64.mul_comm y]
  exact mul_right_inj_of_odd rfl

/-- **Two values have one digest exactly if one word stands for both.** -/
theorem digest_inj {α : Type} [Digestible α] {a b : α} :
    digest a = digest b ↔ Digestible.word a = Digestible.word b :=
  mix_inj

end BuilderForge

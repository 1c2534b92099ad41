import Mathlib.Algebra.Order.Group.Nat
import MetricUnits.Binary.Basic

/-! Error bounds of rounding, in least steps. A rounded magnitude is a multiple of the step around the
exact one and at most half of that step away from it; magnitudes of the format stay as they are. -/
namespace MetricUnits

theorem nearestBounds (x : Nat) {s : Nat} (pos : 0 < s) :
    2 * (nearest x s * s) ≤ 2 * x + s ∧ 2 * x ≤ 2 * (nearest x s * s) + s := by
  have parts : x / s * s + x % s = x := Nat.div_add_mod' x s
  have less : x % s < s := Nat.mod_lt x pos
  unfold nearest
  split
  · omega
  · have next : (x / s + 1) * s = x / s * s + s := Nat.add_one_mul _ _
    omega

theorem nearestScale (x s : Nat) {d : Nat} (pos : 0 < d) :
    nearest (x * d) (d * s) = nearest x s := by
  have left : 2 * (d * (x % s)) < d * s ↔ 2 * (x % s) < s := by
    rw [Nat.mul_left_comm]
    exact Nat.mul_lt_mul_left pos
  have half : 2 * (d * (x % s)) = d * s ↔ 2 * (x % s) = s := by
    rw [Nat.mul_left_comm]
    exact Nat.mul_right_inj (Nat.ne_of_gt pos)
  unfold nearest
  rw [Nat.mul_comm x d, Nat.mul_mod_mul_left, Nat.mul_div_mul_left x s pos]
  simp only [left, half]

namespace Format
variable (f : Format)

theorem roundMagnitudeWhole (x : Nat) : f.roundMagnitude x 1 = nearest x (f.step x) * f.step x := by
  rw [roundMagnitude, Nat.div_one, Nat.one_mul]

theorem roundMagnitudeMul (n d : Nat) {k : Nat} (pos : 0 < k) :
    f.roundMagnitude (n * k) (d * k) = f.roundMagnitude n d := by
  have quotient : n * k / (d * k) = n / d := Nat.mul_div_mul_right n d pos
  have order : d * k * f.step (n / d) = k * (d * f.step (n / d)) := by
    rw [Nat.mul_comm d k, Nat.mul_assoc]
  rw [roundMagnitude, quotient, order, nearestScale n _ pos]
  rfl

theorem roundMagnitudeScale (x : Nat) {d : Nat} (pos : 0 < d) :
    f.roundMagnitude (x * d) d = f.roundMagnitude x 1 := by
  rw [← f.roundMagnitudeMul x 1 pos, Nat.one_mul]

theorem roundMagnitudeBounds (x : Nat) :
    2 * f.roundMagnitude x 1 ≤ 2 * x + f.step x ∧ 2 * x ≤ 2 * f.roundMagnitude x 1 + f.step x := by
  rw [roundMagnitudeWhole]
  exact nearestBounds x (f.stepPos x)

theorem stepDvdRounded (x : Nat) : f.step x ∣ f.roundMagnitude x 1 := by
  rw [roundMagnitudeWhole]
  exact Nat.dvd_mul_left _ _

variable {f}

theorem roundMagnitudeFits {x : Nat} (fits : f.Fits x) : f.roundMagnitude x 1 = x := by
  obtain ⟨k, aligned⟩ := fits.aligned
  have whole : x = k * f.step x := by rw [Nat.mul_comm]; exact aligned
  have same : nearest (k * f.step x) (f.step x) = k := nearestMul k (f.stepPos x)
  rw [← whole] at same
  rw [roundMagnitudeWhole, same, ← whole]

theorem spacingMono {x y : Nat} (le : x ≤ y) : f.spacing x ≤ f.spacing y := by
  have digits : x.log2 ≤ y.log2 := by
    by_cases zero : x = 0
    · subst x
      exact Nat.zero_le _
    · exact (Nat.le_log2 (by omega)).mpr (Nat.le_trans (Nat.log2_self_le zero) le)
  unfold spacing
  omega

theorem stepDvdStep {x y : Nat} (le : x ≤ y) : f.step x ∣ f.step y := by
  simp only [step, Nat.one_shiftLeft]
  exact Nat.pow_dvd_pow 2 (spacingMono le)

theorem stepMulLe {x : Nat} (normal : 2 ^ (f.precision - 1) ≤ x) :
    f.step x * 2 ^ (f.precision - 1) ≤ x := by
  have nonzero : x ≠ 0 := Nat.ne_of_gt (Nat.lt_of_lt_of_le (Nat.two_pow_pos _) normal)
  have digits : f.precision - 1 ≤ x.log2 := (Nat.le_log2 nonzero).mpr normal
  have pos := f.precision_pos
  rw [step, Nat.one_shiftLeft, ← Nat.pow_add]
  refine Nat.le_trans (Nat.pow_le_pow_right (by decide) ?_) (Nat.log2_self_le nonzero)
  unfold spacing
  omega

theorem ltStepMul (x : Nat) : x < f.step x * 2 ^ f.precision := by
  rw [step, Nat.one_shiftLeft, ← Nat.pow_add]
  refine Nat.lt_of_lt_of_le Nat.lt_log2_self (Nat.pow_le_pow_right (by decide) ?_)
  unfold spacing
  omega

theorem stepDvdPow {x k : Nat} (less : x < 2 ^ k) : f.step x ∣ 2 ^ (k - f.precision) := by
  rw [step, Nat.one_shiftLeft]
  refine Nat.pow_dvd_pow 2 ?_
  have digits : x.log2 + 1 ≤ k ∨ x.log2 = 0 := by
    by_cases zero : x = 0
    · exact .inr (by rw [zero]; rfl)
    · exact .inl ((Nat.log2_lt zero).mpr less)
  have pos := f.precision_pos
  unfold spacing
  omega

end Format

namespace Binary
variable {f : Format}

theorem roundMul (f : Format) (negative : Bool) (n d : Nat) {k : Nat} (pos : 0 < k) :
    round f negative (n * k) (d * k) = round f negative n d := by
  simp only [round, f.roundMagnitudeMul n d pos]

theorem roundFits (s : Bool) {m : Nat} (fits : f.Fits m) {d : Nat} (pos : 0 < d) :
    round f s (m * d) d = .finite s m fits := by
  have magnitude : f.roundMagnitude (m * d) d = m := by
    rw [f.roundMagnitudeScale m pos, Format.roundMagnitudeFits fits]
  have below : f.roundMagnitude (m * d) d < f.limit := by rw [magnitude]; exact fits.below
  rw [round, dif_pos below]
  simp only [magnitude]

end Binary
end MetricUnits

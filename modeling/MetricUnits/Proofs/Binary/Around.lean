import Mathlib.Tactic.Ring
import MetricUnits.Proofs.Binary.Order
import MetricUnits.Proofs.Scaling.Closeness

/-! Doubles around fractions. A result that is near a fraction is rounded to that fraction if it is whole, and
else to a number well between the two whole numbers beside it. Either way it has the whole part of the
fraction, and keeps it when whole numbers are added. -/
namespace MetricUnits

theorem nearestNear {n c d : Nat} (pos : 0 < d) (above : 2 * n < 2 * (c * d) + d)
    (below : 2 * (c * d) < 2 * n + d) : nearest n d = c := by
  refine Nat.le_antisymm ((nearestLeIff n c pos).mpr (.inl above)) (Nat.le_of_not_lt fun less => ?_)
  have upper := (nearestLeIff n (nearest n d) pos).mp (Nat.le_refl _)
  have room : (nearest n d + 1) * d ≤ c * d := Nat.mul_le_mul_right d less
  rw [Nat.add_one_mul] at room
  omega

namespace Scaling
open Format Binary

def sixteenth : Nat := 2 ^ (double.depth - 4)

theorem oneSixteenths : double.one = 16 * sixteenth := by decide +kernel

theorem wholeSixteenths (k : Int) : k * (double.one : Int) = 16 * k * sixteenth := by
  rw [oneSixteenths]
  push_cast
  ring

theorem sixteenthsFit {k : Nat} (small : k ≤ wholeLimit) : double.Fits (k * sixteenth) :=
  powerFits small (by decide)

theorem signedSixteenthsFit {k : Int} (small : k.natAbs ≤ wholeLimit) :
    double.Fits (k * (sixteenth : Int)).natAbs := by
  rw [Int.natAbs_mul]
  exact sixteenthsFit small

inductive Around (b : Int) : Int → Int → Prop
  | whole (k : Int) : Around b (k * b) (k * double.one)
  | between {k a x : Int} (above : k * b < a) (below : a < k * b + b)
      (low : k * double.one + sixteenth ≤ x) (high : x + sixteenth ≤ k * double.one + double.one) :
      Around b a x

variable {a b x : Int}

theorem Around.neg (around : Around b a x) : Around b (-a) (-x) := by
  cases around with
  | whole k =>
    rw [← Int.neg_mul, ← Int.neg_mul]
    exact .whole (-k)
  | @between k _ _ above below low high =>
    have left : (-k - 1) * b = -(k * b) - b := by ring
    have right : (-k - 1) * (double.one : Int) = -(k * double.one) - double.one := by ring
    exact .between (k := -k - 1) (by omega) (by omega) (by omega) (by omega)

theorem Around.addWhole (around : Around b a x) (w : Int) :
    Around b (a + w * b) (x + w * double.one) := by
  cases around with
  | whole k =>
    rw [← Int.add_mul, ← Int.add_mul]
    exact .whole (k + w)
  | @between k _ _ above below low high =>
    have left : (k + w) * b = k * b + w * b := Int.add_mul ..
    have right : (k + w) * (double.one : Int) = k * double.one + w * double.one := Int.add_mul ..
    exact .between (k := k + w) (by omega) (by omega) (by omega) (by omega)

theorem Around.sign {a m : Nat} (around : Around b a m) (s : Bool) :
    Around b (withSign s a) (withSign s m) := by
  cases s with
  | false => exact around
  | true => exact around.neg

theorem tdivBetween {k d y : Int} (pos : 0 < d) (nonneg : 0 ≤ k) (low : k * d ≤ y) (high : y < k * d + d) :
    y.tdiv d = k := by
  have start : 0 ≤ y := Int.le_trans (Int.mul_nonneg nonneg pos.le) low
  rw [Int.tdiv_eq_ediv_of_nonneg start]
  exact (Int.ediv_eq_iff_of_pos pos).mpr ⟨low, high⟩

theorem Around.tdivNonneg (pos : 0 < b) (nonneg : 0 ≤ a) (around : Around b a x) :
    x.tdiv double.one = a.tdiv b := by
  have one : (0 : Int) < double.one := Int.natCast_pos.mpr double.onePos
  have unit : (0 : Int) < sixteenth := by decide +kernel
  cases around with
  | whole k => rw [Int.mul_tdiv_cancel k one.ne', Int.mul_tdiv_cancel k pos.ne']
  | @between k _ _ above below low high =>
    have least : 0 ≤ k := by
      have next : 0 < (k + 1) * b := by
        rw [Int.add_mul, Int.one_mul]
        omega
      have positive := Int.pos_of_mul_pos_left next pos
      omega
    rw [tdivBetween pos least above.le below, tdivBetween one least (by omega) (by omega)]

theorem Around.tdiv (pos : 0 < b) (around : Around b a x) : x.tdiv double.one = a.tdiv b := by
  rcases Int.le_total 0 a with nonneg | nonpos
  · exact around.tdivNonneg pos nonneg
  · have mirrored := around.neg.tdivNonneg pos (Int.neg_nonneg_of_nonpos nonpos)
    rw [Int.neg_tdiv, Int.neg_tdiv] at mirrored
    exact Int.neg_inj.mp mirrored

theorem roundMagnitudeBetween {f : Format} {n d lo hi : Nat} (pos : 0 < d) (least : f.Fits lo)
    (greatest : f.Fits hi) (low : lo * d ≤ n) (high : n ≤ hi * d) :
    lo ≤ f.roundMagnitude n d ∧ f.roundMagnitude n d ≤ hi := by
  have below := roundMagnitudeMono (f := f) pos low
  have above := roundMagnitudeMono (f := f) pos high
  rw [f.roundMagnitudeScale _ pos, roundMagnitudeFits least] at below
  rw [f.roundMagnitudeScale _ pos, roundMagnitudeFits greatest] at above
  exact ⟨below, above⟩

/- Beside the fraction `a / b` to within one part in `9 * 2 ^ 52`, as a quotient of least steps. -/
structure Beside (b a : Nat) (n d : Nat) : Prop where
  above : 9 * 2 ^ 52 * (n * b) ≤ (9 * 2 ^ 52 + 1) * (a * (double.one * d))
  below : (9 * 2 ^ 52 - 1) * (a * (double.one * d)) ≤ 9 * 2 ^ 52 * (n * b)

theorem Beside.scale {b a n d : Nat} (beside : Beside b a n d) (m : Nat) : Beside b (m * a) (m * n) d := by
  obtain ⟨above, below⟩ := beside
  have above := Nat.mul_le_mul_left m above
  have below := Nat.mul_le_mul_left m below
  refine ⟨?_, ?_⟩
  · simpa only [Nat.mul_assoc, Nat.mul_left_comm m] using above
  · simpa only [Nat.mul_assoc, Nat.mul_left_comm m] using below

section Rounding
variable {n d : Nat} (pos : 0 < d)
include pos

theorem besideWhole {k b : Nat} (divided : 0 < b) (small : k < 2 ^ 49) (beside : Beside b (k * b) n d) :
    double.roundMagnitude n d = k * double.one := by
  have fraction : k * b * (double.one * d) = k * double.one * d * b := by ring
  obtain ⟨above, below⟩ := beside
  rw [fraction] at above below
  have above : 9 * 2 ^ 52 * n ≤ (9 * 2 ^ 52 + 1) * (k * double.one * d) := by
    refine Nat.le_of_mul_le_mul_right (c := b) ?_ divided
    simpa only [Nat.mul_assoc] using above
  have below : (9 * 2 ^ 52 - 1) * (k * double.one * d) ≤ 9 * 2 ^ 52 * n := by
    refine Nat.le_of_mul_le_mul_right (c := b) ?_ divided
    simpa only [Nat.mul_assoc] using below
  have quotient : n / d < 2 ^ 50 * double.one := by
    have top : k * (double.one * d) ≤ 2 ^ 49 * (double.one * d) := Nat.mul_le_mul_right _ small.le
    have unit : 0 < double.one * d := Nat.mul_pos double.onePos pos
    rw [Nat.div_lt_iff_lt_mul pos, Nat.mul_assoc]
    rw [Nat.mul_assoc k] at above
    omega
  have aligned : double.step (n / d) ∣ k * double.one :=
    Nat.dvd_trans (Nat.dvd_trans (Nat.dvd_mul_left _ _) (stepDvdOne quotient (by decide))) (Nat.dvd_mul_left _ _)
  obtain ⟨c, multiple, scaled⟩ := alignedMultiple aligned
  have unit : 0 < d * double.step (n / d) := Nat.mul_pos pos (double.stepPos _)
  have short : n < 2 ^ 53 * (d * double.step (n / d)) := by
    have less : n / d < double.step (n / d) * 2 ^ 53 := ltStepMul (n / d)
    have scaled := (Nat.div_lt_iff_lt_mul pos).mp less
    have order : double.step (n / d) * 2 ^ 53 * d = 2 ^ 53 * (d * double.step (n / d)) := by ring
    rwa [order] at scaled
  rw [scaled] at above below
  rw [roundMagnitude, multiple, nearestNear (c := c) unit (by omega) (by omega)]

/- In parts of a sixteenth, with the parts counted `b` times over. -/
theorem besideBetween {k r b : Nat} (divided : r + 1 ≤ b) (few : b ≤ 9) (start : 0 < r) (small : k < 2 ^ 49)
    (beside : Beside b (k * b + r) n d) :
    k * double.one + sixteenth ≤ double.roundMagnitude n d ∧
    double.roundMagnitude n d + sixteenth ≤ k * double.one + double.one := by
  have fraction : (k * b + r) * (double.one * d) =
      16 * (k * (b * (sixteenth * d))) + 16 * (r * (sixteenth * d)) := by
    rw [oneSixteenths]
    ring
  obtain ⟨above, below⟩ := beside
  rw [fraction] at above below
  have first : 1 * (sixteenth * d) ≤ r * (sixteenth * d) := Nat.mul_le_mul_right _ start
  have last : (r + 1) * (sixteenth * d) ≤ b * (sixteenth * d) := Nat.mul_le_mul_right _ divided
  have nine : b * (sixteenth * d) ≤ 9 * (sixteenth * d) := Nat.mul_le_mul_right _ few
  have whole : (k + 1) * (b * (sixteenth * d)) ≤ 2 ^ 49 * (b * (sixteenth * d)) :=
    Nat.mul_le_mul_right _ small
  rw [Nat.add_one_mul] at last whole
  -- doubles hold the multiples of a sixteenth around here, and rounding crosses none of them
  have low : (16 * k + 1) * sixteenth * d ≤ n := by
    have parts : (16 * k + 1) * sixteenth * d * b =
        16 * (k * (b * (sixteenth * d))) + b * (sixteenth * d) := by ring
    refine Nat.le_of_mul_le_mul_right (c := b) ?_ (by omega)
    omega
  have high : n ≤ (16 * k + 15) * sixteenth * d := by
    have parts : (16 * k + 15) * sixteenth * d * b =
        16 * (k * (b * (sixteenth * d))) + 15 * (b * (sixteenth * d)) := by ring
    refine Nat.le_of_mul_le_mul_right (c := b) ?_ (by omega)
    omega
  have room : 16 * k + 15 ≤ wholeLimit := by unfold wholeLimit; omega
  obtain ⟨least, greatest⟩ := roundMagnitudeBetween pos (sixteenthsFit (by omega)) (sixteenthsFit room) low high
  have one : k * double.one = 16 * k * sixteenth := by exact_mod_cast wholeSixteenths k
  rw [Nat.add_mul] at least greatest
  rw [one, oneSixteenths]
  omega

theorem besideAround {a b : Nat} (divided : 0 < b) (few : b ≤ 9) (small : a < 2 ^ 49 * b)
    (beside : Beside b a n d) : Around b a (double.roundMagnitude n d) := by
  have parts : a / b * b + a % b = a := Nat.div_add_mod' a b
  have least : a / b < 2 ^ 49 := (Nat.div_lt_iff_lt_mul divided).mpr small
  have rest : a % b < b := Nat.mod_lt a divided
  generalize a / b = k at parts least
  rcases Nat.eq_zero_or_pos (a % b) with exact | start
  · obtain rfl : k * b = a := by omega
    rw [besideWhole pos divided least beside]
    push_cast
    exact .whole k
  · rw [← parts] at beside
    obtain ⟨low, high⟩ := besideBetween pos rest few start least beside
    exact .between (k := k) (by exact_mod_cast (by omega : k * b < a))
      (by exact_mod_cast (by omega : a < k * b + b)) (by exact_mod_cast low) (by exact_mod_cast high)

theorem Beside.around {a b u w m : Nat} (beside : Beside b a (u * w) d) (divided : 0 < b) (few : b ≤ 9)
    (small : m * a < 2 ^ 49 * b) {s : Bool} (finite : (round .double s (m * u * w) d).isFinite) :
    Around b (a * withSign s m) (round .double s (m * u * w) d).steps := by
  have scaled := beside.scale m
  rw [← Nat.mul_assoc] at scaled
  have around := (besideAround pos divided few small scaled).sign s
  rw [withSignMul, Int.mul_comm] at around
  rwa [roundSteps finite]

end Rounding

theorem Around.rounded (pos : 0 < b) (low : -(2 ^ 49 * b) ≤ a) (high : a < 2 ^ 49 * b)
    (around : Around b a x) (s : Bool) :
    (ofSteps .double s x).isFinite ∧ Around b a (ofSteps .double s x).steps := by
  cases around with
  | whole k =>
    have least : -2 ^ 49 ≤ k := Int.le_of_mul_le_mul_right (by rwa [Int.neg_mul]) pos
    have most : k < 2 ^ 49 := Int.lt_of_mul_lt_mul_right high pos.le
    have fits : double.Fits (k * (double.one : Int)).natAbs := by
      rw [Int.natAbs_mul]
      exact wholeFits (by unfold wholeLimit; omega)
    obtain ⟨finite, steps⟩ := ofStepsExact s fits
    rw [steps]
    exact ⟨finite, .whole k⟩
  | @between k _ _ above below least most =>
    have first : k < 2 ^ 49 := Int.lt_of_mul_lt_mul_right (Int.lt_trans above high) pos.le
    have last : -2 ^ 49 < k + 1 := by
      refine Int.lt_of_mul_lt_mul_right (a := b) ?_ pos.le
      rw [Int.add_mul, Int.one_mul, Int.neg_mul]
      omega
    have one := wholeSixteenths k
    have unit : (double.one : Int) = 16 * sixteenth := by exact_mod_cast oneSixteenths
    have lower : (16 * k + 1) * (sixteenth : Int) ≤ x := by rw [Int.add_mul]; omega
    have upper : x ≤ (16 * k + 15) * (sixteenth : Int) := by rw [Int.add_mul]; omega
    have lowFits : double.Fits ((16 * k + 1) * (sixteenth : Int)).natAbs :=
      signedSixteenthsFit (by unfold wholeLimit; omega)
    have highFits : double.Fits ((16 * k + 15) * (sixteenth : Int)).natAbs :=
      signedSixteenthsFit (by unfold wholeLimit; omega)
    obtain ⟨finite, left, right⟩ := ofStepsBetween s lower upper lowFits highFits
    rw [Int.add_mul] at left right
    exact ⟨finite, .between above below (by omega) (by omega)⟩

end Scaling
end MetricUnits

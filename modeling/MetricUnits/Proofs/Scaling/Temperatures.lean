import MetricUnits.Proofs.Binary.Around
import MetricUnits.Proofs.Binary.Widening
import MetricUnits.Proofs.Scaling.Order

/-! Integers converted between the temperatures. The double `1.8` is above its decimal, and both conversions
round twice, but up to `2 ^ 48` no rounding reaches the next whole number: the results are the exact
formulas, truncated. -/
namespace MetricUnits

namespace Binary
variable {f : Format} {x y : Binary f}

theorem addSteps (left : x.isFinite) (right : y.isFinite) :
    ∃ s, x + y = ofSteps f s (x.steps + y.steps) := by
  cases x with
  | finite s m h =>
    cases y with
    | finite t n k => exact ⟨s && t, rfl⟩
    | _ => contradiction
  | _ => contradiction

end Binary

namespace Conversion
open Format Binary Scaling

variable {t : IntegerType} {v : t.Value}

theorem ratioBeside :
    Beside 5 9 (double.one * degreeRatio.magnitude) double.one ∧
    Beside 9 5 (double.one * double.one) degreeRatio.magnitude := by
  refine ⟨⟨?_, ?_⟩, ?_, ?_⟩ <;> decide +kernel

theorem offsetSteps : degreeOffset.steps = 32 * double.one ∧ degreeOffset.neg.steps = -32 * double.one := by
  decide +kernel

theorem productAround (small : v.val.natAbs ≤ 2 ^ 48) :
    (ofInt .double v.val * degreeRatio).isFinite ∧
    Around 5 (9 * v.val) (ofInt .double v.val * degreeRatio).steps := by
  have positive := degreesPositive.2.1
  obtain ⟨fits, widened⟩ := ofIntWhole (n := v.val) (Nat.le_trans small (by decide))
  have finite : (ofInt .double v.val * degreeRatio).isFinite :=
    (mulUpTo (widenedUpTo v) degreesUpTo.1 (Nat.le_refl _) moderateBounds.2.1).1
  refine ⟨finite, ?_⟩
  rw [widened, mulFinite _ fits positive] at finite ⊢
  have around := ratioBeside.1.around double.onePos (by decide) (by decide) (by omega) finite
  rwa [withSignNatAbs] at around

theorem celsiusWhole (small : v.val.natAbs ≤ 2 ^ 48) :
    (celsiusToFahrenheit.applyInteger v).val = clamp t.least t.greatest ((9 * v.val + 160).tdiv 5) := by
  obtain ⟨finite, around⟩ := productAround small
  obtain ⟨s, sum⟩ := addSteps finite degreesPositive.2.2
  have shifted := around.addWhole 32
  rw [← offsetSteps.1] at shifted
  obtain ⟨summed, around⟩ := shifted.rounded (by decide) (by omega) (by omega) s
  have applied : celsiusToFahrenheit.applyDouble (ofInt .double v.val) = ofSteps .double s _ := sum
  rw [applyIntegerPlain rfl, applied, truncateSteps summed, around.tdiv (by decide)]
  rfl

theorem differenceExact (small : v.val.natAbs ≤ 2 ^ 48) :
    ∃ s fits, ofInt .double v.val - degreeOffset = .finite s ((v.val - 32).natAbs * double.one) fits ∧
      withSign s (v.val - 32).natAbs = v.val - 32 := by
  have one : (0 : Int) < double.one := Int.natCast_pos.mpr double.onePos
  obtain ⟨left, source⟩ := ofIntRepresented (wholeRepresented (Nat.le_trans small (by decide)))
  obtain ⟨s, difference⟩ := addSteps left (negFinite degreesPositive.2.2)
  have steps : (ofInt .double v.val).steps + degreeOffset.neg.steps = (v.val - 32) * double.one := by
    rw [source, offsetSteps.2, ← Int.add_mul, Int.sub_eq_add_neg]
  have whole : double.Fits ((v.val - 32) * double.one : Int).natAbs := by
    rw [Int.natAbs_mul]
    exact wholeFits (by unfold wholeLimit; omega)
  obtain ⟨sign, fits, signed, exact⟩ := ofStepsFits s whole
  rw [steps, exact] at difference
  simp only [Int.natAbs_mul, Int.natAbs_natCast, withSignMul] at fits signed difference
  exact ⟨sign, fits, difference, Int.eq_of_mul_eq_mul_right one.ne' signed⟩

theorem fahrenheitWhole (small : v.val.natAbs ≤ 2 ^ 48) :
    (fahrenheitToCelsius.applyInteger v).val = clamp t.least t.greatest ((5 * (v.val - 32)).tdiv 9) := by
  have positive := degreesPositive.2.1
  obtain ⟨s, fits, difference, sign⟩ := differenceExact small
  have applied : fahrenheitToCelsius.applyDouble (ofInt .double v.val) =
      round .double s ((v.val - 32).natAbs * double.one * double.one) degreeRatio.magnitude := by
    rw [← divRound fits positive, ← difference]
    rfl
  have finite := applyDoubleFinite temperaturesBounded.2 (widenedUpTo v)
  rw [applied] at finite
  have around := ratioBeside.2.around (Nat.pos_of_ne_zero (positiveFinite positive).1) (by decide) (by decide)
    (by omega) finite
  rw [sign] at around
  rw [applyIntegerPlain rfl, applied, truncateSteps finite, around.tdiv (by decide)]
  rfl

theorem temperaturesWhole (small : v.val.natAbs ≤ 2 ^ 48) :
    (celsiusToFahrenheit.applyInteger v).val = clamp t.least t.greatest ((9 * v.val + 160).tdiv 5) ∧
    (fahrenheitToCelsius.applyInteger v).val = clamp t.least t.greatest ((5 * (v.val - 32)).tdiv 9) :=
  ⟨celsiusWhole small, fahrenheitWhole small⟩

theorem largestTemperature :
    let v : IntegerType.int64.Value := ⟨281474976710655, by decide⟩
    let w : IntegerType.uint32.Value := ⟨20, by decide⟩
    (v.val.natAbs ≤ 2 ^ 48 ∧ w.val.natAbs ≤ 2 ^ 48) ∧
    (celsiusToFahrenheit.applyInteger v).val = 506654958079211 ∧
    (fahrenheitToCelsius.applyInteger w).val = 0 := by
  intro v w
  have small : v.val.natAbs ≤ 2 ^ 48 ∧ w.val.natAbs ≤ 2 ^ 48 := by decide
  exact ⟨small, (temperaturesWhole small.1).1, (temperaturesWhole small.2).2⟩

end Conversion
end MetricUnits

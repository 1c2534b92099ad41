import MetricUnits.Proofs.Binary.Order

/-! Numbers widened to doubles. Single precision is contained in double precision, so numbers of it come back
as they were. An integer goes to a whole number, which is the integer itself if some double has that value. -/
namespace MetricUnits

namespace Binary
variable {f : Format} {n : Int}

def Represents (f : Format) (n : Int) : Prop := ∃ x : Binary f, x.isFinite ∧ x.exact = n

theorem exactWhole {x : Binary f} (whole : x.steps = n * f.one) : x.exact = n := by
  have one : (f.one : ℚ) ≠ 0 := Nat.cast_ne_zero.mpr (Nat.ne_of_gt f.onePos)
  rw [exact, whole]
  push_cast
  exact mul_div_cancel_right₀ _ one

theorem representsIff : Represents f n ↔ f.Fits (n.natAbs * f.one) := by
  constructor
  · rintro ⟨x, finite, exact⟩
    have steps := exactSteps x
    rw [exact] at steps
    have steps : x.steps = n * f.one := by exact_mod_cast steps.symm
    have magnitude := stepsMagnitude x
    rw [steps, Int.natAbs_mul, Int.natAbs_natCast] at magnitude
    cases x with
    | finite s m h => exact magnitude ▸ h
    | _ => contradiction
  · intro fits
    refine ⟨.finite (n < 0) _ fits, rfl, exactWhole ?_⟩
    rw [stepsFinite, withSignMul, withSignNatAbs]

theorem unitsApart : Format.double.one = 2 ^ 925 * Format.single.one := by decide +kernel

theorem singleFits {m : Nat} (fits : Format.single.Fits m) : Format.double.Fits (m * 2 ^ 925) := by
  obtain ⟨k, multiple⟩ := fits.aligned
  have step : Format.single.step m = 2 ^ Format.single.spacing m := Nat.one_shiftLeft _
  have few : k ≤ Format.wholeLimit := by
    have less : Format.single.step m * k < Format.single.step m * 2 ^ 24 :=
      multiple ▸ Format.single.ltStepMul m
    have := Nat.lt_of_mul_lt_mul_left less
    unfold Format.wholeLimit
    omega
  obtain ⟨spacing, height⟩ : Format.single.spacing Format.single.limit = 254 ∧
      Format.double.height = 2098 := by decide +kernel
  have most : Format.single.spacing m ≤ 254 := spacing ▸ Format.spacingMono (Nat.le_of_lt fits.below)
  have room : 53 + (Format.single.spacing m + 925) < Format.double.height := by omega
  have product : m * 2 ^ 925 = k * 2 ^ (Format.single.spacing m + 925) := by
    rw [Nat.pow_add, ← Nat.mul_assoc, ← step, Nat.mul_comm k, ← multiple]
  rw [product]
  exact Format.powerFits few room

theorem singleBack (x : Single) : ((x.convert .double : Double).convert .single : Single) = x := by
  cases x with
  | nan => rfl
  | infinite s => rfl
  | finite s m h =>
    have product : m * 2 ^ 925 * Format.single.one = m * Format.double.one := by
      rw [Nat.mul_assoc, ← unitsApart]
    have wide : (Binary.finite s m h).convert .double = .finite s (m * 2 ^ 925) (singleFits h) := by
      rw [convert, ← product, roundFits s (singleFits h) Format.single.onePos]
    rw [wide, convert, product, roundFits s h Format.double.onePos]

theorem oneDvdStep {m : Nat} (large : Format.wholeLimit ≤ m) :
    Format.double.one ∣ Format.double.step (m * Format.double.one) := by
  have base : Format.double.one ∣ Format.double.step (Format.wholeLimit * Format.double.one) := by
    decide +kernel
  exact Nat.dvd_trans base (Format.stepDvdStep (Nat.mul_le_mul_right _ large))

theorem oneDvdRounded (m : Nat) :
    Format.double.one ∣ Format.double.roundMagnitude (m * Format.double.one) 1 := by
  by_cases small : m ≤ Format.wholeLimit
  · rw [Format.roundMagnitudeFits (Format.wholeFits small)]
    exact Nat.dvd_mul_left _ _
  · exact Nat.dvd_trans (oneDvdStep (Nat.le_of_not_le small)) (Format.double.stepDvdRounded _)

theorem ofIntSteps (finite : (ofInt .double n).isFinite) :
    ∃ k, (ofInt .double n).steps = k * Format.double.one ∧ Represents .double k := by
  obtain ⟨q, multiple⟩ := oneDvdRounded n.natAbs
  have whole : (ofInt .double n).steps = withSign (n < 0) q * Format.double.one := by
    rw [ofInt, roundSteps finite, multiple, Nat.mul_comm, withSignMul]
  exact ⟨_, whole, _, finite, exactWhole whole⟩

theorem wholeRepresented (small : n.natAbs ≤ Format.wholeLimit) : Represents .double n :=
  representsIff.mpr (Format.wholeFits small)

theorem ofIntRepresented (represented : Represents f n) :
    (ofInt f n).isFinite ∧ (ofInt f n).steps = n * f.one := by
  have fits := representsIff.mp represented
  have widened : ofInt f n = .finite (n < 0) (n.natAbs * f.one) fits := by
    rw [ofInt, ← roundFits _ fits Nat.zero_lt_one, Nat.mul_one]
  rw [widened, stepsFinite, withSignMul, withSignNatAbs]
  exact ⟨rfl, rfl⟩

end Binary
end MetricUnits

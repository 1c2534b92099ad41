import MetricUnits.Proofs.Scaling.Whole

/-! Factors beside the ratios that they stand for. A factor `k`, in least steps, is compared with the
ratio `up / down`, and a whole `v` whose exact multiple `n` by the ratio is whole is compared with the
rounded product of `v` and `k`: how far the factor is off decides whether the product is off. -/
namespace MetricUnits.Scaling
open Format

/- The bounds are in parts of the ratio. Half a step of a double is one part in `2 ^ 54` to `2 ^ 53`. -/
def NearBelow (k up down : Nat) : Prop :=
  k * down ≤ up * double.one ∧ (6 * 2 ^ 54 - 5) * (up * double.one) ≤ 6 * 2 ^ 54 * (k * down)

def FarBelow (k up down : Nat) : Prop :=
  2 ^ 52 ≤ k ∧ (2 ^ 53 + 1) * (k * down) < 2 ^ 53 * (up * double.one)

def NearAbove (k up down : Nat) : Prop :=
  up * double.one ≤ k * down ∧ 2 ^ 54 * (k * down) ≤ (2 ^ 54 + 3) * (up * double.one)

def FarAbove (k up down : Nat) : Prop :=
  (2 ^ 53 + 1) * (up * double.one) < 2 ^ 53 * (k * down)

instance (k up down : Nat) : Decidable (NearBelow k up down) := inferInstanceAs (Decidable (_ ∧ _))
instance (k up down : Nat) : Decidable (FarBelow k up down) := inferInstanceAs (Decidable (_ ∧ _))
instance (k up down : Nat) : Decidable (NearAbove k up down) := inferInstanceAs (Decidable (_ ∧ _))
instance (k up down : Nat) : Decidable (FarAbove k up down) := inferInstanceAs (Decidable (_ < _))

theorem carryLe {x y p q v d a b : Nat} (left : x * d = v * p) (right : y * d = v * q) (pos : 0 < d)
    (le : a * p ≤ b * q) : a * x ≤ b * y := by
  refine Nat.le_of_mul_le_mul_right ?_ pos
  calc a * x * d = v * (a * p) := by rw [Nat.mul_assoc, left, Nat.mul_left_comm]
    _ ≤ v * (b * q) := Nat.mul_le_mul_left v le
    _ = b * y * d := by rw [Nat.mul_assoc, right, Nat.mul_left_comm]

theorem carryLt {x y p q v d a b : Nat} (left : x * d = v * p) (right : y * d = v * q) (pos : 0 < v)
    (lt : a * p < b * q) : a * x < b * y := by
  refine Nat.lt_of_mul_lt_mul_right (a := d) ?_
  calc a * x * d = v * (a * p) := by rw [Nat.mul_assoc, left, Nat.mul_left_comm]
    _ < v * (b * q) := Nat.mul_lt_mul_of_pos_left lt pos
    _ = b * y * d := by rw [Nat.mul_assoc, right, Nat.mul_left_comm]

theorem stepDvdOne {x j : Nat} (less : x < 2 ^ j * double.one) (small : j ≤ 53) :
    2 ^ (53 - j) * double.step x ∣ double.one := by
  have below : x < 2 ^ (j + double.depth) := by
    rwa [Nat.pow_add, ← Nat.one_shiftLeft double.depth]
  have dvd := stepDvdPow (f := double) below
  have depth : double.depth = 1074 := by decide
  have precision : double.precision = 53 := rfl
  have total : 53 - j + (j + double.depth - double.precision) = double.depth := by omega
  have top : double.one = 2 ^ (53 - j) * 2 ^ (j + double.depth - double.precision) := by
    rw [← Nat.pow_add, total, one, Nat.one_shiftLeft]
  rw [top]
  exact Nat.mul_dvd_mul_left _ dvd

theorem roundedBelowLimit {x : Nat} (less : x < 2 ^ 53 * (4 * double.one)) :
    double.roundMagnitude x 1 < double.limit := by
  have below : x < 2 ^ (55 + double.depth) := by
    rw [Nat.pow_add, ← Nat.one_shiftLeft double.depth]
    change x < 2 ^ 55 * double.one
    omega
  have dvd := stepDvdPow (f := double) below
  have step := Nat.le_of_dvd (Nat.two_pow_pos _) dvd
  have bounds := (double.roundMagnitudeBounds x).1
  have limit : 2 ^ (55 + double.depth) + 2 ^ (55 + double.depth - double.precision) < double.limit := by
    decide +kernel
  omega

section Product
variable {k up down v n : Nat} (crossed : n * down = v * up)
include crossed

theorem productMultiple : v * k * down = v * (k * down) ∧
    n * double.one * down = v * (up * double.one) := by
  refine ⟨Nat.mul_assoc _ _ _, ?_⟩
  rw [Nat.mul_right_comm, crossed, Nat.mul_assoc]

theorem productBelowLimit (pos : 0 < down) (small : n ≤ wholeLimit)
    (near : k * down ≤ 2 * (up * double.one)) : double.roundMagnitude (v * k) 1 < double.limit := by
  obtain ⟨left, right⟩ := @productMultiple k up down v n crossed
  have le : 1 * (v * k) ≤ 2 * (n * double.one) := carryLe left right pos (by omega)
  have top : n * double.one ≤ 2 ^ 53 * double.one := Nat.mul_le_mul_right _ small
  have one := double.onePos
  exact roundedBelowLimit (by omega)

theorem nearBelowKeeps (pos : 0 < down) (small : n ≤ wholeLimit) (near : NearBelow k up down) :
    double.roundMagnitude (v * k) 1 = n * double.one := by
  obtain ⟨left, right⟩ := @productMultiple k up down v n crossed
  have le : 1 * (v * k) ≤ 1 * (n * double.one) :=
    carryLe left right pos (Nat.mul_le_mul_left 1 near.1)
  have close := carryLe right left pos near.2
  have short : v * k < double.step (v * k) * 2 ^ 53 := ltStepMul (v * k)
  have bounds := double.roundMagnitudeBounds (v * k)
  have rounded := double.stepDvdRounded (v * k)
  have aligned : double.step (v * k) ∣ n * double.one :=
    Nat.dvd_trans (stepDvdStep (by omega)) (wholeFits small).aligned
  -- two multiples of the step that are less than a step apart
  refine Nat.le_antisymm ?_ ?_
  · exact Nat.le_of_lt_add_of_dvd (by omega) rounded aligned
  · exact Nat.le_of_lt_add_of_dvd (by omega) aligned rounded

theorem farBelowLoses (start : 0 < v) (far : FarBelow k up down) :
    double.roundMagnitude (v * k) 1 < n * double.one := by
  obtain ⟨left, right⟩ := @productMultiple k up down v n crossed
  have lt := carryLt left right start far.2
  have normal : 2 ^ 52 ≤ v * k := Nat.le_trans far.1 (Nat.le_mul_of_pos_left k start)
  have step : double.step (v * k) * 2 ^ 52 ≤ v * k := stepMulLe normal
  have bounds := (double.roundMagnitudeBounds (v * k)).1
  omega

theorem nearAboveLe (pos : 0 < down) (near : NearAbove k up down) :
    n * double.one ≤ v * k ∧ 2 ^ 54 * (v * k) ≤ (2 ^ 54 + 3) * (n * double.one) := by
  obtain ⟨left, right⟩ := @productMultiple k up down v n crossed
  have ge : 1 * (n * double.one) ≤ 1 * (v * k) :=
    carryLe right left pos (Nat.mul_le_mul_left 1 near.1)
  exact ⟨by omega, carryLe left right pos near.2⟩

theorem nearAboveKeeps (divided : 0 < down) (small : n < 2 ^ 52) (near : NearAbove k up down) :
    n * double.one ≤ double.roundMagnitude (v * k) 1 ∧
    double.roundMagnitude (v * k) 1 < (n + 1) * double.one := by
  obtain ⟨ge, close⟩ := nearAboveLe crossed divided near
  have whole : (n + 1) * double.one ≤ 2 ^ 52 * double.one := Nat.mul_le_mul_right _ small
  have next : (n + 1) * double.one = n * double.one + double.one := Nat.add_one_mul _ _
  have pos := double.onePos
  -- down here half a unit is still a multiple of the step, so that a fraction can stay
  have half : 2 ^ (53 - 52) * double.step (v * k) ∣ double.one := stepDvdOne (by omega) (by decide)
  have step := Nat.le_of_dvd double.onePos half
  have bounds := double.roundMagnitudeBounds (v * k)
  have aligned : double.step (v * k) ∣ n * double.one :=
    Nat.dvd_trans (Nat.dvd_trans (Nat.dvd_mul_left _ _) half) (Nat.dvd_mul_left _ _)
  refine ⟨?_, by omega⟩
  exact Nat.le_of_lt_add_of_dvd (by have := double.stepPos (v * k); omega) aligned
    (double.stepDvdRounded (v * k))

theorem farAboveGains (pos : 0 < down) (start : 0 < v) (large : 2 ^ 52 ≤ n) (small : n + 2 ≤ wholeLimit)
    (near : NearAbove k up down) (far : FarAbove k up down) :
    (n + 1) * double.one ≤ double.roundMagnitude (v * k) 1 := by
  obtain ⟨left, right⟩ := @productMultiple k up down v n crossed
  obtain ⟨ge, close⟩ := nearAboveLe crossed pos near
  have excess := carryLt right left start far
  have low : 2 ^ 52 * double.one ≤ n * double.one := Nat.mul_le_mul_right _ large
  have high : (n + 2) * double.one ≤ 2 ^ 53 * double.one := Nat.mul_le_mul_right _ small
  have next : (n + 1) * double.one = n * double.one + double.one := Nat.add_one_mul _ _
  have second : (n + 2) * double.one = (n + 1) * double.one + double.one := Nat.add_one_mul _ _
  have dvd : 2 ^ (53 - 53) * double.step (v * k) ∣ double.one := stepDvdOne (by omega) (by decide)
  rw [Nat.sub_self, Nat.pow_zero, Nat.one_mul] at dvd
  have short : v * k < double.step (v * k) * 2 ^ 53 := ltStepMul (v * k)
  -- and up here the step is a whole unit
  have step : double.step (v * k) = double.one := by
    obtain ⟨j, multiple⟩ := dvd
    have less : double.step (v * k) * j < double.step (v * k) * 2 := by omega
    have small := Nat.lt_of_mul_lt_mul_left less
    have one := double.onePos
    rcases (by omega : j = 0 ∨ j = 1) with rfl | rfl <;> omega
  have bounds := double.roundMagnitudeBounds (v * k)
  have more : n * double.one < double.roundMagnitude (v * k) 1 := by omega
  have rounded := double.stepDvdRounded (v * k)
  rw [step] at rounded
  exact Nat.le_of_lt_add_of_dvd (by omega) (Nat.dvd_mul_left _ _) rounded

end Product
end MetricUnits.Scaling

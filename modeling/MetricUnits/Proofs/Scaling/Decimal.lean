import Mathlib.Algebra.Order.Field.Rat
import MetricUnits.Proofs.Scaling.Closeness

/-! Integers scaled between decimal prefixes. A multiple that is whole is met exactly, but for a few
pairs whose factor is too far off: five lose one of every whole multiple but zero, and one gains one
above half of the numbers that doubles hold exactly. -/
namespace MetricUnits

namespace Prefix
open Format Scaling

def decimals : List Prefix := all.filter fun p => p.power?.any (·.1 = 10)

theorem decimalValid {p : Prefix} (decimal : p ∈ decimals) : p.isValid :=
  (memAllIff p).mp (List.mem_filter.mp decimal).1

def exponent (p : Prefix) : Int := p.power?.elim 0 (·.2)

theorem decimalPower {p : Prefix} {e : Int} (power : p.power? = some (10, e)) :
    p ∈ decimals ∧ p.exponent = e := by
  refine ⟨List.mem_filter.mpr ⟨(memAllIff p).mpr ?_, by simp [power]⟩, by simp [exponent, power]⟩
  cases p <;> first | rfl | contradiction

def multiple (p q : Prefix) : Nat := 10 ^ (p.exponent - q.exponent).toNat

theorem multiplePos (p q : Prefix) : 0 < multiple p q := Nat.pow_pos (by decide)

theorem multipleOne (p q : Prefix) : multiple p q = 1 ∨ multiple q p = 1 := by
  rcases Int.le_total p.exponent q.exponent with le | le
  · exact .inl (by rw [multiple, Int.toNat_of_nonpos (by omega), Nat.pow_zero])
  · exact .inr (by rw [multiple, Int.toNat_of_nonpos (by omega), Nat.pow_zero])

/- The pairs whose factor falls short of their ratio by more than half a step. -/
def shortfalls : List (Prefix × Prefix) :=
  [(base, nano), (kilo, nano), (micro, nano), (micro, kilo), (micro, giga)]

def Misses (p q : Prefix) (n : Nat) : Prop :=
  (p, q) ∈ shortfalls ∧ n ≠ 0 ∨ (p = milli ∧ q = micro) ∧ 2 ^ 52 ≤ n

instance (p q : Prefix) (n : Nat) : Decidable (Misses p q n) := inferInstanceAs (Decidable (_ ∨ _))

def Close (k up down : Nat) : Prop :=
  NearBelow k up down ∨ NearAbove k up down ∧ 1000 ≤ down

instance (k up down : Nat) : Decidable (Close k up down) := inferInstanceAs (Decidable (_ ∨ _))

def Judged (p q : Prefix) (k : Nat) : Prop :=
  k < double.limit ∧ k ≠ double.one ∧
    if (p, q) ∈ shortfalls then FarBelow k (multiple p q) (multiple q p)
    else if p = milli ∧ q = micro then NearAbove k 1000 1 ∧ FarAbove k 1000 1
    else Close k (multiple p q) (multiple q p) ∨
      wholeLimit < multiple p q ∨ wholeLimit < multiple q p

instance (p q : Prefix) (k : Nat) : Decidable (Judged p q k) := inferInstanceAs (Decidable (_ ∧ _ ∧ _))

theorem ratioJudged : ∀ p ∈ decimals, ∀ q ∈ decimals, p ≠ q → Judged p q (ratio p q) := by
  decide +kernel

theorem multipleRatio (p q : Prefix) :
    (10 : ℚ) ^ (p.exponent - q.exponent) = (multiple p q : ℚ) / (multiple q p : ℚ) := by
  have denominator : (multiple q p : ℚ) ≠ 0 := Nat.cast_ne_zero.mpr (multiplePos q p).ne'
  have exponents : p.exponent - q.exponent + ((q.exponent - p.exponent).toNat : ℤ) =
      ((p.exponent - q.exponent).toNat : ℤ) := by
    omega
  rw [eq_div_iff denominator, multiple, multiple]
  push_cast
  rw [← zpow_natCast (10 : ℚ) (q.exponent - p.exponent).toNat,
    ← zpow_natCast (10 : ℚ) (p.exponent - q.exponent).toNat, ← zpow_add₀ (by decide), exponents]

theorem multipleWhole {p q : Prefix} {v n : Int}
    (equal : (n : ℚ) = v * 10 ^ (p.exponent - q.exponent)) :
    n * multiple q p = v * multiple p q := by
  have denominator : (multiple q p : ℚ) ≠ 0 := Nat.cast_ne_zero.mpr (multiplePos q p).ne'
  rw [multipleRatio, mul_div_assoc', eq_div_iff denominator] at equal
  exact_mod_cast equal

theorem gainingRatio : multiple milli micro = 1000 ∧ multiple micro milli = 1 := by decide

section Multiple
variable {p q : Prefix} {k v n : Nat} (crossed : n * multiple q p = v * multiple p q) (small : n ≤ wholeLimit)
include crossed small

theorem shortfallLoses (start : 0 < v) (far : FarBelow k (multiple p q) (multiple q p)) :
    double.roundMagnitude (v * k) 1 < double.limit ∧ wholeProduct v k < n := by
  have near := far.2
  refine ⟨productBelowLimit crossed (multiplePos q p) small (by omega), ?_⟩
  exact (Nat.div_lt_iff_lt_mul double.onePos).mpr (farBelowLoses crossed start far)

theorem closeMeets (source : v ≤ wholeLimit) (close : Close k (multiple p q) (multiple q p)) :
    double.roundMagnitude (v * k) 1 < double.limit ∧ wholeProduct v k = n := by
  have down := multiplePos q p
  rcases close with near | ⟨near, most⟩
  · have upper := near.1
    refine ⟨productBelowLimit crossed down small (by omega), ?_⟩
    rw [wholeProduct, nearBelowKeeps crossed down small near]
    exact Nat.mul_div_cancel _ double.onePos
  · have upper := near.2
    have low : n < 2 ^ 52 := by
      have least := Nat.mul_le_mul_left n most
      have one : multiple p q = 1 := (multipleOne p q).resolve_right (by omega)
      rw [one] at crossed
      unfold wholeLimit at source
      omega
    obtain ⟨least, next⟩ := nearAboveKeeps crossed down low near
    exact ⟨productBelowLimit crossed down small (by omega), Nat.div_eq_of_lt_le least next⟩

theorem notApart (start : 0 < v) (source : v ≤ wholeLimit) :
    ¬ (wholeLimit < multiple p q ∨ wholeLimit < multiple q p) := by
  have limit : 1 ≤ wholeLimit := by decide
  have positive : 0 < n := Nat.pos_of_ne_zero fun zero => by
    have up := Nat.mul_pos start (multiplePos p q)
    rw [zero, Nat.zero_mul] at crossed
    omega
  have right := Nat.le_mul_of_pos_left (multiple p q) start
  have left := Nat.le_mul_of_pos_left (multiple q p) positive
  rcases multipleOne p q with one | one <;> rw [one, Nat.mul_one] at crossed <;> omega

end Multiple

theorem gainingWhole {k v n : Nat} (crossed : n * 1 = v * 1000) (small : n ≤ wholeLimit) (start : 0 < v)
    (near : NearAbove k 1000 1) (far : FarAbove k 1000 1) :
    double.roundMagnitude (v * k) 1 < double.limit ∧
      (n < 2 ^ 52 ∧ wholeProduct v k = n ∨ 2 ^ 52 ≤ n ∧ n < wholeProduct v k) := by
  have upper := near.2
  refine ⟨productBelowLimit crossed (by decide) small (by omega), ?_⟩
  rcases Nat.lt_or_ge n (2 ^ 52) with low | high
  · obtain ⟨least, next⟩ := nearAboveKeeps crossed (by decide) low near
    exact .inl ⟨low, Nat.div_eq_of_lt_le least next⟩
  · have room : n + 2 ≤ wholeLimit := by unfold wholeLimit at *; omega
    have more := farAboveGains crossed (by decide) start high room near far
    exact .inr ⟨high, (Nat.le_div_iff_mul_le double.onePos).mpr more⟩

inductive Outcome (p q : Prefix) (n : Nat) (result : Nat) : Prop
  | met (equal : result = n) (clean : ¬ Misses p q n)
  | lost (less : result < n) (misses : Misses p q n)
  | gained (more : n < result) (large : 2 ^ 52 ≤ n) (misses : Misses p q n)

theorem roundedZero (k : Nat) : double.roundMagnitude (0 * k) 1 = 0 := by
  rw [Nat.zero_mul]
  exact roundMagnitudeFits (wholeFits (Nat.zero_le _))

theorem wholeJudged {p q : Prefix} {k v n : Nat} (judged : Judged p q k)
    (crossed : n * multiple q p = v * multiple p q) (source : v ≤ wholeLimit) (small : n ≤ wholeLimit) :
    double.roundMagnitude (v * k) 1 < double.limit ∧ Outcome p q n (wholeProduct v k) := by
  rcases Nat.eq_zero_or_pos v with rfl | start
  · obtain rfl : n = 0 := by
      rw [Nat.zero_mul] at crossed
      exact (Nat.mul_eq_zero.mp crossed).resolve_right (multiplePos q p).ne'
    rw [wholeProduct, roundedZero]
    exact ⟨by decide, .met (Nat.zero_div _) (by simp [Misses])⟩
  obtain ⟨_, _, judged⟩ := judged
  by_cases short : (p, q) ∈ shortfalls
  · rw [if_pos short] at judged
    obtain ⟨below, less⟩ := shortfallLoses crossed small start judged
    exact ⟨below, .lost less (.inl ⟨short, Nat.ne_zero_of_lt less⟩)⟩
  rw [if_neg short] at judged
  by_cases gaining : p = milli ∧ q = micro
  · rw [if_pos gaining] at judged
    obtain ⟨rfl, rfl⟩ := gaining
    rw [gainingRatio.1, gainingRatio.2] at crossed
    obtain ⟨below, ⟨low, equal⟩ | ⟨high, more⟩⟩ := gainingWhole crossed small start judged.1 judged.2
    · refine ⟨below, .met equal ?_⟩
      rintro (⟨mem, _⟩ | ⟨_, large⟩)
      · exact short mem
      · omega
    · exact ⟨below, .gained more high (.inr ⟨⟨rfl, rfl⟩, high⟩)⟩
  rw [if_neg gaining] at judged
  have close := judged.resolve_right (notApart crossed small start source)
  obtain ⟨below, equal⟩ := closeMeets crossed small source close
  exact ⟨below, .met equal fun misses => misses.elim (short ·.1) (gaining ·.1)⟩

end Prefix
end MetricUnits

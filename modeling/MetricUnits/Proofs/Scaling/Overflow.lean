import MetricUnits.Proofs.Convertible
import MetricUnits.Proofs.Scaling.Whole

/-! What conversions make of finite doubles. The result may be too large for one, and is infinite then,
but it is never undefined. Neither is it infinite for any number of a reasonable size, as the factors
between prefixes are bounded. -/
namespace MetricUnits

namespace Binary
variable {f : Format} {x y : Binary f}

def Defined (x : Binary f) : Prop := x ≠ .nan

theorem Defined.finiteOrInfinite (defined : x.Defined) : x.isFinite ∨ ∃ s, x = .infinite s := by
  cases x with
  | nan => exact absurd rfl defined
  | infinite s => exact .inr ⟨s, rfl⟩
  | finite s m fits => exact .inl rfl

theorem finiteDefined (finite : x.isFinite) : x.Defined := by
  rintro rfl
  contradiction

theorem roundDefined (negative : Bool) (n d : Nat) : (round f negative n d).Defined := by
  unfold round
  intro undefined
  split at undefined <;> contradiction

theorem ofStepsDefined (zeroSign : Bool) (n : Int) : (ofSteps f zeroSign n).Defined := by
  unfold ofSteps
  split
  · nofun
  · exact roundDefined _ _ _

theorem negFinite (finite : x.isFinite) : x.neg.isFinite := by
  cases x with
  | finite s m fits => rfl
  | _ => contradiction

theorem addDefined (left : x.Defined) (right : y.isFinite) : (x + y).Defined := by
  cases y with
  | finite t n k =>
    cases x with
    | nan => exact absurd rfl left
    | infinite s => nofun
    | finite s m h => exact ofStepsDefined _ _
  | _ => contradiction

theorem subDefined (left : x.Defined) (right : y.isFinite) : (x - y).Defined :=
  addDefined left (negFinite right)

theorem mulDefined (left : x.isFinite) (right : y.isFinite) : (x * y).Defined := by
  cases x with
  | finite s m h =>
    cases y with
    | finite t n k => exact roundDefined _ _ _
    | _ => contradiction
  | _ => contradiction

theorem divRound {s : Bool} {m : Nat} (h : f.Fits m) (right : y.isPositive) :
    Binary.finite s m h / y = round f s (m * f.one) y.magnitude := by
  obtain ⟨nonzero, fits, positive⟩ := positiveFinite right
  rw [positive]
  refine (if_neg nonzero).trans ?_
  rw [Bool.xor_false]
  rfl

theorem divDefined (left : x.Defined) (right : y.isPositive) : (x / y).Defined := by
  cases x with
  | nan => exact absurd rfl left
  | infinite s =>
    obtain ⟨_, fits, positive⟩ := positiveFinite right
    rw [positive]
    nofun
  | finite s m h =>
    rw [divRound h right]
    exact roundDefined _ _ _

end Binary

namespace Format
variable (f : Format)

theorem stepLe (x : Nat) : f.step x ≤ x + 1 := by
  rw [step, Nat.one_shiftLeft]
  by_cases zero : x = 0
  · have least : spacing f x = 0 := by
      have pos := f.precision_pos
      rw [spacing, zero, Nat.log2_zero]
      omega
    rw [least]
    omega
  · have below : spacing f x ≤ x.log2 := by
      have pos := f.precision_pos
      unfold spacing
      omega
    calc 2 ^ spacing f x ≤ 2 ^ x.log2 := Nat.pow_le_pow_right (by decide) below
      _ ≤ x := Nat.log2_self_le zero
      _ ≤ x + 1 := Nat.le_succ x

theorem roundMagnitudeLe (n d : Nat) : f.roundMagnitude n d ≤ 2 * (n / d) + 1 := by
  have step := f.stepLe (n / d)
  calc f.roundMagnitude n d
      ≤ (n / (d * f.step (n / d)) + 1) * f.step (n / d) := Nat.mul_le_mul_right _ (nearestLe _ _)
    _ = n / d / f.step (n / d) * f.step (n / d) + f.step (n / d) := by
        rw [Nat.add_one_mul, Nat.div_div_eq_div_mul]
    _ ≤ n / d + f.step (n / d) := Nat.add_le_add_right (Nat.div_mul_le_self _ _) _
    _ ≤ 2 * (n / d) + 1 := by omega

end Format

namespace Binary
variable {f : Format} {x y : Binary f} {a b c : Nat}

def UpTo (bound : Nat) (x : Binary f) : Prop := x.isFinite ∧ x.magnitude ≤ bound

theorem finiteUpTo (negative : Bool) {m : Nat} (fits : f.Fits m) (le : m ≤ c) :
    (finite negative m fits).UpTo c := ⟨rfl, le⟩

theorem roundUpTo (negative : Bool) {n d : Nat} (bounded : 2 * (n / d) + 1 ≤ c) (below : c < f.limit) :
    (round f negative n d).UpTo c := by
  have rounded := Nat.le_trans (f.roundMagnitudeLe n d) bounded
  rw [round, dif_pos (Nat.lt_of_le_of_lt rounded below)]
  exact finiteUpTo _ _ rounded

theorem ofStepsUpTo (zeroSign : Bool) {n : Int} (bounded : 2 * n.natAbs + 1 ≤ c) (below : c < f.limit) :
    (ofSteps f zeroSign n).UpTo c := by
  unfold ofSteps
  split
  · exact ⟨rfl, Nat.zero_le c⟩
  · exact roundUpTo _ (by rwa [Nat.div_one]) below

theorem stepsMagnitude (x : Binary f) : x.steps.natAbs = x.magnitude := by
  cases x with
  | finite s m fits => cases s <;> simp [steps, magnitude]
  | _ => rfl

theorem negUpTo (right : y.UpTo b) : y.neg.UpTo b := by
  obtain ⟨finite, le⟩ := right
  cases y with
  | finite t n k => exact ⟨rfl, le⟩
  | _ => contradiction

theorem addUpTo (left : x.UpTo a) (right : y.UpTo b) (bounded : 2 * (a + b) + 1 ≤ c)
    (below : c < f.limit) : (x + y).UpTo c := by
  obtain ⟨leftFinite, leftLe⟩ := left
  obtain ⟨rightFinite, rightLe⟩ := right
  have sum : (x.steps + y.steps).natAbs ≤ a + b := by
    have parts := Int.natAbs_add_le x.steps y.steps
    rw [stepsMagnitude, stepsMagnitude] at parts
    omega
  cases x with
  | finite s m h =>
    cases y with
    | finite t n k => exact ofStepsUpTo _ (by omega) below
    | _ => contradiction
  | _ => contradiction

theorem mulUpTo (left : x.UpTo a) (right : y.UpTo b) (bounded : 2 * (a * b / f.one) + 1 ≤ c)
    (below : c < f.limit) : (x * y).UpTo c := by
  obtain ⟨leftFinite, leftLe⟩ := left
  obtain ⟨rightFinite, rightLe⟩ := right
  have product : x.magnitude * y.magnitude / f.one ≤ a * b / f.one :=
    Nat.div_le_div_right (Nat.mul_le_mul leftLe rightLe)
  cases x with
  | finite s m h =>
    cases y with
    | finite t n k =>
      have le : m * n / f.one ≤ a * b / f.one := product
      exact roundUpTo _ (by omega) below
    | _ => contradiction
  | _ => contradiction

theorem divUpTo (left : x.UpTo a) (right : y.isPositive)
    (bounded : 2 * (a * f.one / y.magnitude) + 1 ≤ c) (below : c < f.limit) : (x / y).UpTo c := by
  obtain ⟨leftFinite, leftLe⟩ := left
  cases x with
  | finite s m h =>
    have quotient : m * f.one / y.magnitude ≤ a * f.one / y.magnitude :=
      Nat.div_le_div_right (Nat.mul_le_mul_right _ leftLe)
    rw [divRound h right]
    exact roundUpTo _ (by omega) below
  | _ => contradiction

end Binary

namespace Prefix
open Format

theorem factorBounds : ∀ p ∈ all,
    nano.factor.magnitude ≤ p.factor.magnitude ∧ p.factor.magnitude ≤ yobi.factor.magnitude := by
  decide +kernel

def ratioBound : Nat := 2 * (yobi.factor.magnitude * double.one / nano.factor.magnitude) + 1

theorem ratioLe {p q : Prefix} (source : p.isValid) (target : q.isValid) : ratio p q ≤ ratioBound := by
  have most := (factorBounds p ((memAllIff p).mpr source)).2
  have least := (factorBounds q ((memAllIff q).mpr target)).1
  have quotient := Nat.div_le_div (Nat.mul_le_mul_right double.one most) least (by decide +kernel)
  exact Nat.le_trans (double.roundMagnitudeLe _ _)
    (Nat.add_le_add_right (Nat.mul_le_mul_left 2 quotient) 1)

theorem ratioBelow {p q : Prefix} (source : p.isValid) (target : q.isValid) : ratio p q < double.limit := by
  have below : ratioBound < double.limit := by decide +kernel
  exact Nat.lt_of_le_of_lt (ratioLe source target) below

end Prefix

namespace Conversion
open Prefix Format

def Bounded (c : Conversion) : Prop := ∀ k ∈ c.factor?, k.UpTo ratioBound

theorem scaleBounded {k : Double} (bounded : k.UpTo ratioBound) : (scale k).Bounded := by
  intro k' given
  obtain rfl : k = k' := Option.some.inj given
  exact bounded

theorem oneUpTo : one.UpTo ratioBound := by
  refine ⟨?_, ?_⟩ <;> decide +kernel

theorem identityBounded : identity.Bounded := by
  intro k given
  obtain rfl : one = k := Option.some.inj given
  exact oneUpTo

theorem temperaturesBounded : celsiusToFahrenheit.Bounded ∧ fahrenheitToCelsius.Bounded := by
  simp [Bounded, factor?]

theorem degreesPositive : degreeRatio.isFinite ∧ degreeRatio.isPositive ∧ degreeOffset.isFinite := by
  decide +kernel

variable {c : Conversion} {x : Double}

theorem applyDoubleDefined (bounded : c.Bounded) (finite : x.isFinite) : (c.applyDouble x).Defined := by
  obtain ⟨ratio, positive, offset⟩ := degreesPositive
  cases c with
  | identity => exact Binary.finiteDefined finite
  | scale k => exact Binary.mulDefined finite (bounded k rfl).1
  | celsiusToFahrenheit => exact Binary.addDefined (Binary.mulDefined finite ratio) offset
  | fahrenheitToCelsius =>
    exact Binary.divDefined (Binary.subDefined (Binary.finiteDefined finite) offset) positive

def moderate : Nat := Nat.pow 2 900 * double.one

theorem degreesUpTo : degreeRatio.UpTo (2 * double.one) ∧ degreeOffset.UpTo (32 * double.one) := by
  refine ⟨⟨?_, ?_⟩, ?_, ?_⟩ <;> decide +kernel

theorem moderateBounds :
    2 * (moderate * ratioBound / double.one) + 1 < double.limit ∧
    2 * (moderate * (2 * double.one) / double.one) + 1 < double.limit ∧
    2 * (2 * (moderate * (2 * double.one) / double.one) + 1 + 32 * double.one) + 1 < double.limit ∧
    2 * (moderate + 32 * double.one) + 1 < double.limit ∧
    2 * ((2 * (moderate + 32 * double.one) + 1) * double.one / degreeRatio.magnitude) + 1
      < double.limit := by
  decide +kernel

theorem applyDoubleFinite (bounded : c.Bounded) (small : x.UpTo moderate) :
    (c.applyDouble x).isFinite := by
  obtain ⟨ratio, offset⟩ := degreesUpTo
  obtain ⟨scaled, product, sum, difference, quotient⟩ := moderateBounds
  cases c with
  | identity => exact small.1
  | scale k => exact (Binary.mulUpTo small (bounded k rfl) (Nat.le_refl _) scaled).1
  | celsiusToFahrenheit =>
    have product := Binary.mulUpTo small ratio (Nat.le_refl _) product
    have sum := Binary.addUpTo product offset (Nat.le_refl _) sum
    exact sum.1
  | fahrenheitToCelsius =>
    have difference := Binary.addUpTo small (Binary.negUpTo offset) (Nat.le_refl _) difference
    have quotient := Binary.divUpTo difference degreesPositive.2.1 (Nat.le_refl _) quotient
    exact quotient.1

theorem applyOutcome (bounded : c.Bounded) (finite : x.isFinite) :
    (c.apply .float64 x : Double).isFinite ∨
      moderate < x.magnitude ∧ ∃ s, c.apply .float64 x = (.infinite s : Double) := by
  unfold apply
  split
  · exact .inl finite
  · rcases (applyDoubleDefined bounded finite).finiteOrInfinite with done | ⟨s, infinite⟩
    · exact .inl done
    · refine .inr ⟨Nat.lt_of_not_le fun small => ?_, s, infinite⟩
      have finite := applyDoubleFinite bounded ⟨finite, small⟩
      rw [infinite] at finite
      exact absurd finite Bool.false_ne_true

end Conversion

theorem Prefix.conversionBounded (p q : Prefix) : (p.conversion q).Bounded := by
  by_cases scaled : p.isValid ∧ q.isValid ∧ p ≠ q
  · obtain ⟨source, target, different⟩ := scaled
    obtain ⟨fits, scale⟩ := conversionScale source target different (ratioBelow source target)
    rw [scale]
    exact Conversion.scaleBounded (Binary.finiteUpTo _ _ (ratioLe source target))
  · have identity : p.conversion q = .identity := by
      refine if_pos ?_
      simpa only [Bool.or_eq_true, Bool.not_eq_true', decide_eq_true_eq, not_and_or, ne_eq, not_not,
        Bool.not_eq_true, or_assoc] using scaled
    rw [identity]
    exact Conversion.identityBounded

theorem MetricUnit.conversionToBounded {u v : MetricUnit} {c : Conversion}
    (converts : u.conversionTo v = .ok c) : c.Bounded := by
  unfold conversionTo at converts
  split at converts
  · contradiction
  split at converts
  · contradiction
  split at converts
  · obtain rfl := Except.ok.inj converts
    exact Conversion.temperaturesBounded.1
  · obtain rfl := Except.ok.inj converts
    exact Conversion.temperaturesBounded.2
  · split at converts
    · obtain rfl := Except.ok.inj converts
      exact Prefix.conversionBounded _ _
    · contradiction

end MetricUnits

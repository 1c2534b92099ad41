import MetricUnits.Conversion
import MetricUnits.Proofs.Binary.Rounding

/-! Factors of prefixes, and whole numbers that a scale multiplies. As far as doubles hold them exactly,
only the product is rounded, and the result is the whole part of that magnitude with the sign of the
number. -/
namespace MetricUnits

namespace Format

def wholeLimit : Nat := 2 ^ 53

theorem powerFits {n e : Nat} (small : n ≤ wholeLimit) (room : 53 + e < double.height) :
    double.Fits (n * 2 ^ e) := by
  have shifted : n * 2 ^ e = n <<< e := (Nat.shiftLeft_eq n e).symm
  refine ⟨?_, ?_⟩
  · rw [limit, Nat.one_shiftLeft]
    calc n * 2 ^ e ≤ 2 ^ 53 * 2 ^ e := Nat.mul_le_mul_right _ small
      _ = 2 ^ (53 + e) := (Nat.pow_add ..).symm
      _ < 2 ^ double.height := Nat.pow_lt_pow_right (by decide) room
  · rw [shifted]
    exact double.stepDvdShiftLeft small e

theorem wholeFits {n : Nat} (small : n ≤ wholeLimit) : double.Fits (n * double.one) := by
  rw [one, Nat.one_shiftLeft]
  exact powerFits small (by decide)

end Format

namespace Binary
variable {f : Format}

def magnitude : Binary f → Nat
  | .finite _ m _ => m
  | _ => 0

def isPositive : Binary f → Bool
  | .finite false m _ => m ≠ 0
  | _ => false

theorem positiveFinite {x : Binary f} (positive : x.isPositive) :
    x.magnitude ≠ 0 ∧ ∃ fits, x = .finite false x.magnitude fits := by
  cases x with
  | nan => contradiction
  | infinite s => contradiction
  | finite s m fits =>
    cases s with
    | true => contradiction
    | false => exact ⟨of_decide_eq_true positive, fits, rfl⟩

theorem divPositive {x y : Binary f} (left : x.isPositive) (right : y.isPositive)
    (below : f.roundMagnitude (x.magnitude * f.one) y.magnitude < f.limit) :
    ∃ fits, x / y = .finite false (f.roundMagnitude (x.magnitude * f.one) y.magnitude) fits := by
  obtain ⟨_, leftFits, hx⟩ := positiveFinite left
  obtain ⟨nonzero, rightFits, hy⟩ := positiveFinite right
  refine ⟨⟨below, f.stepDvdRoundMagnitude _ _⟩, ?_⟩
  have quotient : x / y =
      div (.finite false x.magnitude leftFits) (.finite false y.magnitude rightFits) := by
    rw [← hx, ← hy]
    rfl
  rw [quotient]
  simp only [div, nonzero, if_false, Bool.xor_self, round]
  rw [dif_pos below]

theorem roundFinite (negative : Bool) {n d m : Nat} (rounded : f.roundMagnitude n d = m)
    (below : m < f.limit) : ∃ fits, round f negative n d = .finite negative m fits := by
  subst m
  exact ⟨⟨below, f.stepDvdRoundMagnitude n d⟩, by rw [round, dif_pos below]⟩

theorem ofIntWhole {n : Int} (small : n.natAbs ≤ Format.wholeLimit) :
    ∃ fits, ofInt .double n = .finite (n < 0) (n.natAbs * Format.double.one) fits := by
  have fits := Format.wholeFits small
  exact ⟨fits, by rw [ofInt, ← roundFits _ fits Nat.zero_lt_one, Nat.mul_one]⟩

theorem mulWhole (negative : Bool) {n k : Nat} (left : f.Fits (n * f.one)) (right : f.Fits k)
    (below : f.roundMagnitude (n * k) 1 < f.limit) :
    ∃ fits, mul (.finite negative (n * f.one) left) (.finite false k right) =
      .finite negative (f.roundMagnitude (n * k) 1) fits := by
  -- the steps of one in the left magnitude are what multiplication divides by
  have product : n * f.one * k = n * k * f.one := Nat.mul_right_comm _ _ _
  have rounded : f.roundMagnitude (n * f.one * k) f.one = f.roundMagnitude (n * k) 1 := by
    rw [product, f.roundMagnitudeScale _ f.onePos]
  obtain ⟨fits, finite⟩ := roundFinite negative rounded below
  exact ⟨fits, by rw [← finite]; cases negative <;> rfl⟩

end Binary

namespace Prefix
open Format

def ratio (p q : Prefix) : Nat :=
  double.roundMagnitude (p.factor.magnitude * double.one) q.factor.magnitude

theorem factorPositive : ∀ p ∈ all, p.factor.isPositive := by decide +kernel

theorem conversionScale {p q : Prefix} (hp : p.isValid) (hq : q.isValid) (different : p ≠ q)
    (below : ratio p q < double.limit) :
    ∃ fits, p.conversion q = .scale (.finite false (ratio p q) fits) := by
  obtain ⟨fits, quotient⟩ := Binary.divPositive (factorPositive p ((memAllIff p).mpr hp))
    (factorPositive q ((memAllIff q).mpr hq)) below
  refine ⟨fits, ?_⟩
  rw [conversion, hp, hq, quotient]
  simp [different, ratio]

end Prefix

theorem IntegerType.valueEqIff {t : IntegerType} {x y : t.Value} : x = y ↔ x.val = y.val := by
  cases x
  cases y
  simp

namespace Scaling
open Format

def wholeProduct (v k : Nat) : Nat := double.roundMagnitude (v * k) 1 / double.one

def signed (n : Int) (magnitude : Nat) : Int := if n < 0 then -magnitude else magnitude

end Scaling

namespace Conversion
open Scaling

def applyInteger (c : Conversion) {t : IntegerType} (n : t.Value) : t.Value := c.apply (.integer t) n

theorem oneWhole : ∃ fits, one = .finite false Format.double.one fits := by
  obtain ⟨fits, whole⟩ := Binary.ofIntWhole (n := 1) (by decide)
  simp only [Int.natAbs_one, Nat.one_mul] at fits whole
  exact ⟨fits, whole⟩

theorem isIdentityScale {k : Nat} (fits : Format.double.Fits k) :
    (scale (.finite false k fits)).isIdentity = decide (k = Format.double.one) := by
  obtain ⟨whole, eq⟩ := oneWhole
  rw [isIdentity, eq, Bool.eq_iff_iff]
  simp only [Binary.sameValue, Binary.steps, beq_iff_eq, Int.natCast_inj, decide_eq_true_eq]

theorem scaleInteger {t : IntegerType} {n : t.Value} (small : n.val.natAbs ≤ Format.wholeLimit)
    {k : Nat} (fits : Format.double.Fits k) (other : k ≠ Format.double.one)
    (below : Format.double.roundMagnitude (n.val.natAbs * k) 1 < Format.double.limit) :
    ((scale (.finite false k fits)).applyInteger n).val =
      Binary.clamp t.least t.greatest (signed n.val (wholeProduct n.val.natAbs k)) := by
  have plain : (scale (.finite false k fits)).isIdentity = false := by
    rw [isIdentityScale]
    exact decide_eq_false other
  obtain ⟨whole, widened⟩ := Binary.ofIntWhole small
  obtain ⟨rounded, product⟩ := Binary.mulWhole (decide (n.val < 0)) whole fits below
  have narrowed : ((scale (.finite false k fits)).applyInteger n).val =
      ((Binary.ofInt .double n.val).mul (.finite false k fits)).truncate t.least t.greatest := by
    unfold applyInteger apply
    rw [plain]
    rfl
  rw [narrowed, widened, product]
  simp [Binary.truncate, Binary.wholePart, signed, wholeProduct]

end Conversion

end MetricUnits

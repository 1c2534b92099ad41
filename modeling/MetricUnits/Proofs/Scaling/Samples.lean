import Mathlib.Tactic.NormNum.Pow
import MetricUnits.Proofs.Scaling.Decimal
import MetricUnits.Proofs.Scaling.Integers

/-! Integer samples scaled between prefixes. Between decimal ones and within the numbers that doubles hold
exactly, the exact multiple is the result if and only if it is not one of those that the factor misses.
Binary factors and their quotients are powers of two, and nothing is rounded before truncation. -/
namespace MetricUnits

namespace IntegerType
open Scaling Binary
variable {t : IntegerType}

theorem clampHeld {n : Int} (held : t.Holds n) : clamp t.least t.greatest n = n := by
  obtain ⟨low, high⟩ := held
  unfold clamp
  omega

theorem clampLess {x : Int} {n w : Nat} (held : t.Holds (signed x n)) (less : w < n) :
    clamp t.least t.greatest (signed x w) ≠ signed x n := by
  have low := t.leastLe
  have high := t.greatestGe
  have toward : t.Holds (signed x w) := by
    obtain ⟨least, greatest⟩ := held
    unfold signed at *
    split at * <;> exact ⟨by omega, by omega⟩
  rw [clampHeld toward]
  unfold signed
  split <;> omega

theorem holdsNext {x : Int} {n : Nat} (held : t.Holds (signed x n)) (large : 2 ^ 52 ≤ n)
    (small : n ≤ Format.wholeLimit) : t.Holds (signed x (n + 1)) := by
  unfold Format.wholeLimit at small
  unfold Holds signed at *
  cases t <;> simp [least, greatest, isSigned, bits] at * <;> split at * <;> omega

theorem clampMore {x : Int} {n w : Nat} (held : t.Holds (signed x n)) (large : 2 ^ 52 ≤ n)
    (small : n ≤ Format.wholeLimit) (more : n < w) :
    clamp t.least t.greatest (signed x w) ≠ signed x n := by
  obtain ⟨least, greatest⟩ := held
  obtain ⟨nextLeast, nextGreatest⟩ := holdsNext ⟨least, greatest⟩ large small
  unfold clamp signed at *
  split at * <;> omega

end IntegerType

namespace Sample

theorem integerRepresentation {t : SampleType} (integer : t.isInteger) :
    ∃ i, t.representation = .integer i := by
  cases t <;> first | exact ⟨_, rfl⟩ | contradiction

end Sample

namespace Scaling

theorem signedMultiple {v n : Int} {up down : Nat} (crossed : n * down = v * up) (scaled : 0 < up)
    (divided : 0 < down) : n.natAbs * down = v.natAbs * up ∧ n = signed v n.natAbs := by
  refine ⟨by simpa [Int.natAbs_mul] using congrArg Int.natAbs crossed, ?_⟩
  unfold signed
  split
  case isTrue negative =>
    have left : n * down < 0 := crossed ▸ Int.mul_neg_of_neg_of_pos negative (by omega)
    have sign : n < 0 := Int.not_le.mp fun up =>
      Int.not_le.mpr left (Int.mul_nonneg up (Int.natCast_nonneg down))
    omega
  case isFalse nonnegative =>
    have left : 0 ≤ n * down := crossed ▸ Int.mul_nonneg (by omega) (by omega)
    have sign : 0 ≤ n := Int.nonneg_of_mul_nonneg_left left (by omega)
    omega

theorem powersDivide (n : Nat) {a b d e : Nat} (distance : e + b = d + a) :
    n * 2 ^ e / 2 ^ d = n * 2 ^ a / 2 ^ b := by
  have left : n * 2 ^ e * 2 ^ b = n * 2 ^ a * 2 ^ d := by
    rw [Nat.mul_assoc, Nat.mul_assoc, ← Nat.pow_add, ← Nat.pow_add, distance, Nat.add_comm]
  calc n * 2 ^ e / 2 ^ d
      = n * 2 ^ e * 2 ^ b / (2 ^ d * 2 ^ b) := (Nat.mul_div_mul_right _ _ (Nat.two_pow_pos b)).symm
    _ = n * 2 ^ a * 2 ^ d / (2 ^ b * 2 ^ d) := by rw [left, Nat.mul_comm (2 ^ d)]
    _ = n * 2 ^ a / 2 ^ b := Nat.mul_div_mul_right _ _ (Nat.two_pow_pos d)

theorem signedDivide (v : Int) (a b : Nat) : signed v (v.natAbs * a / b) = (v * a).tdiv b := by
  have quotient : ((v.natAbs * a / b : Nat) : Int) = ((v.natAbs : Int) * a).tdiv b := by
    rw [← Int.natCast_mul]
    exact Int.ofNat_tdiv _ _
  unfold signed
  rw [quotient]
  split
  case isTrue negative =>
    have magnitude : (v.natAbs : Int) = -v := by omega
    rw [magnitude, Int.neg_mul, Int.neg_tdiv, Int.neg_neg]
  case isFalse nonnegative =>
    have magnitude : (v.natAbs : Int) = v := by omega
    rw [magnitude]

end Scaling

namespace Prefix
open Format Scaling

theorem decimalInteger {p q : Prefix} (source : p ∈ decimals) (target : q ∈ decimals) (different : p ≠ q)
    {t : IntegerType} {x y : t.Value} (crossed : y.val * multiple q p = x.val * multiple p q)
    (xSmall : x.val.natAbs ≤ wholeLimit) (ySmall : y.val.natAbs ≤ wholeLimit) :
    (p.conversion q).applyInteger x = y ↔ ¬ Misses p q y.val.natAbs := by
  have judged := ratioJudged p source q target different
  obtain ⟨magnitudes, sign⟩ := signedMultiple crossed (multiplePos p q) (multiplePos q p)
  obtain ⟨below, outcome⟩ := wholeJudged judged magnitudes xSmall ySmall
  obtain ⟨fits, scale⟩ := conversionScale (decimalValid source) (decimalValid target) different judged.1
  have held : t.Holds (signed x.val y.val.natAbs) := sign ▸ y.holds
  rw [IntegerType.valueEqIff, scale, Conversion.scaleInteger xSmall fits judged.2.1 below]
  cases outcome with
  | met equal clean =>
    rw [equal, ← sign, IntegerType.clampHeld y.holds]
    exact iff_of_true rfl clean
  | lost less misses =>
    refine iff_of_false (fun same => ?_) (not_not_intro misses)
    exact IntegerType.clampLess held less (same.trans sign)
  | gained more large misses =>
    refine iff_of_false (fun same => ?_) (not_not_intro misses)
    exact IntegerType.clampMore held large ySmall more (same.trans sign)

theorem decimalNumber {p q : Prefix} (source : p ∈ decimals) (target : q ∈ decimals) (different : p ≠ q)
    {r : Representation} {i : IntegerType} (integer : r = .integer i) {x y : r.Value} {expected : String}
    {v n : Int} (read : r.ofNumber expected (.integer v) = .ok x)
    (met : r.ofNumber expected (.integer n) = .ok y) (crossed : n * multiple q p = v * multiple p q)
    (vSmall : v.natAbs ≤ wholeLimit) (nSmall : n.natAbs ≤ wholeLimit) :
    (p.conversion q).apply r x = y ↔ ¬ Misses p q n.natAbs := by
  have left := (Representation.ofNumberIff expected integer).mp read
  have right := (Representation.ofNumberIff expected integer).mp met
  subst integer
  obtain rfl := Option.some.inj left
  obtain rfl := Option.some.inj right
  exact decimalInteger source target different crossed vSmall nSmall

theorem decimalMultipleIff {p q : Prefix} {a b : Int} (source : p.power? = some (10, a))
    (target : q.power? = some (10, b)) (different : p ≠ q) {t : SampleType} (integer : t.isInteger)
    {v n : Int} {s s' : Sample} (read : Sample.ofNumber t (.integer v) = .ok s)
    (met : Sample.ofNumber t (.integer n) = .ok s') (equal : (n : ℚ) = v * 10 ^ (a - b))
    (vSmall : v.natAbs ≤ 2 ^ 53) (nSmall : n.natAbs ≤ 2 ^ 53) :
    (p.conversion q).applySample s = s' ↔ ¬ Misses p q n.natAbs := by
  obtain ⟨i, representation⟩ := Sample.integerRepresentation integer
  obtain ⟨x, xRead, rfl⟩ := Sample.ofNumberMade read
  obtain ⟨y, yRead, rfl⟩ := Sample.ofNumberMade met
  obtain ⟨sourceDecimal, rfl⟩ := decimalPower source
  obtain ⟨targetDecimal, rfl⟩ := decimalPower target
  have number := decimalNumber sourceDecimal targetDecimal different representation xRead yRead
    (multipleWhole equal) vSmall nSmall
  rw [Conversion.applySampleMk, ← number]
  simp

theorem thousandMetAndMissed :
    (kilo.conversion base).applySample (.int64 ⟨1, by decide⟩) = .int64 ⟨1000, by decide⟩ ∧
    (micro.conversion nano).applySample (.int64 ⟨1, by decide⟩) ≠ .int64 ⟨1000, by decide⟩ := by
  have met := (@decimalMultipleIff kilo base 3 0 rfl rfl (by decide) .int64 rfl 1 1000 _ _ rfl rfl
    (by norm_num) (by decide) (by decide)).mpr (by decide)
  have missed := (@decimalMultipleIff micro nano (-6) (-9) rfl rfl (by decide) .int64 rfl 1 1000 _ _
    rfl rfl (by norm_num) (by decide) (by decide)).not.mpr (by decide)
  exact ⟨met, missed⟩

theorem thousandMissed :
    micro.power? = some (10, -6) ∧ nano.power? = some (10, -9) ∧
    ((1000 : Int) : ℚ) = (1 : Int) * 10 ^ ((-6 : Int) - -9) ∧
    (micro.conversion nano).applySample (.int64 ⟨1, by decide⟩) = .int64 ⟨999, by decide⟩ :=
  ⟨rfl, rfl, by norm_num, by decide +kernel⟩

def HasPowerOfTwo (p : Prefix) (i : Nat) : Prop := p = base ∧ i = 0 ∨ p.power? = some (2, (i : Int))

def binaries : List Prefix := all.filter fun p => p = base || p.power?.any (·.1 = 2)

theorem binaryPower {p : Prefix} {i : Nat} (power : p.HasPowerOfTwo i) : p ∈ binaries ∧ p.exponent = i := by
  rcases power with ⟨rfl, rfl⟩ | power
  · decide
  · refine ⟨List.mem_filter.mpr ⟨(memAllIff p).mpr ?_, by simp [power]⟩, by simp [exponent, power]⟩
    cases p <;> first | rfl | contradiction

theorem binaryValid {p : Prefix} (binary : p ∈ binaries) : p.isValid :=
  (memAllIff p).mp (List.mem_filter.mp binary).1

theorem binaryRatio : ∀ p ∈ binaries, ∀ q ∈ binaries,
    ratio p q = 2 ^ (double.depth + p.exponent - q.exponent).toNat := by
  decide +kernel

theorem binaryExponents : ∀ p ∈ binaries, p.exponent ≤ 80 ∧ ∀ q ∈ binaries, p.exponent = q.exponent → p = q := by
  decide

section Power
variable {p q : Prefix} {i j : Nat} (source : p.HasPowerOfTwo i) (target : q.HasPowerOfTwo j) (different : p ≠ q)
include source target different

theorem binaryScale : ∃ e fits, p.conversion q = .scale (.finite false (2 ^ e) fits) ∧
    e + j = double.depth + i ∧ 53 + e < double.height ∧ 2 ^ e ≠ double.one := by
  obtain ⟨pBinary, up⟩ := binaryPower source
  obtain ⟨qBinary, down⟩ := binaryPower target
  obtain ⟨upMost, apart⟩ := binaryExponents p pBinary
  obtain ⟨downMost, _⟩ := binaryExponents q qBinary
  have depth : double.depth = 1074 := by decide
  have height : double.height = 2098 := by decide
  have power := binaryRatio p pBinary q qBinary
  obtain ⟨e, exponent⟩ : ∃ e, (double.depth + p.exponent - q.exponent).toNat = e := ⟨_, rfl⟩
  rw [exponent] at power
  have fits : double.Fits (1 * 2 ^ e) := powerFits (by decide) (by omega)
  rw [Nat.one_mul] at fits
  obtain ⟨factor, scale⟩ := conversionScale (binaryValid pBinary) (binaryValid qBinary) different (power ▸ fits.below)
  refine ⟨e, fits, ?_, by omega, by omega, fun same => ?_⟩
  · simp only [scale, power]
  · rw [one, Nat.one_shiftLeft] at same
    have exponents := Nat.pow_right_injective (Nat.le_refl 2) same
    exact different (apart q qBinary (by omega))

theorem binaryInteger {t : IntegerType} {v : t.Value} (small : v.val.natAbs ≤ wholeLimit) :
    ((p.conversion q).applyInteger v).val =
      Binary.clamp t.least t.greatest ((v.val * 2 ^ i).tdiv (2 ^ j)) := by
  obtain ⟨e, factor, scale, distance, room, other⟩ := binaryScale source target different
  have fits : double.Fits (v.val.natAbs * 2 ^ e) := powerFits small room
  have exact := roundMagnitudeFits fits
  have whole : wholeProduct v.val.natAbs (2 ^ e) = v.val.natAbs * 2 ^ i / 2 ^ j := by
    rw [wholeProduct, exact, one, Nat.one_shiftLeft, powersDivide _ distance]
  rw [scale, Conversion.scaleInteger small factor other (exact.symm ▸ fits.below), whole, signedDivide]
  push_cast
  rfl

end Power

theorem binaryMultiple {p q : Prefix} {i j : Nat} (source : p.HasPowerOfTwo i) (target : q.HasPowerOfTwo j)
    (different : p ≠ q) {s : Sample} {t : IntegerType} {v : Int} (given : s.Holds t v) (small : v.natAbs ≤ 2 ^ 53) :
    ((p.conversion q).applySample s).type = s.type ∧
    ((p.conversion q).applySample s).Holds t
      (Binary.clamp t.least t.greatest ((v * 2 ^ i).tdiv (2 ^ j))) := by
  obtain ⟨x, rfl, type, holds⟩ := given.applied (p.conversion q)
  rw [binaryInteger source target different small] at holds
  exact ⟨type, holds⟩

theorem kibiTruncated :
    let s := Sample.int64 ⟨-9007199254740991, by decide⟩
    (base.HasPowerOfTwo 0 ∧ kibi.HasPowerOfTwo 10 ∧ base ≠ kibi) ∧ s.Holds .int64 (-9007199254740991) ∧
    ((base.conversion kibi).applySample s).Holds .int64 (-8796093022207) := by
  intro s
  have powers : base.HasPowerOfTwo 0 ∧ kibi.HasPowerOfTwo 10 ∧ base ≠ kibi := ⟨.inl ⟨rfl, rfl⟩, .inr rfl, by decide⟩
  have given : s.Holds .int64 (-9007199254740991) := ⟨rfl, rfl⟩
  exact ⟨powers, given, (binaryMultiple powers.1 powers.2.1 powers.2.2 given (by decide)).2⟩

end Prefix

end MetricUnits

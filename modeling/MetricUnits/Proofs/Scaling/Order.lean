import MetricUnits.Proofs.Binary.Order

/-! Conversions of integers keep their order. Each of the roundings keeps it, and truncation and the bounds
of a type keep it too, so a chain of conversions does, and no number wraps around. -/
namespace MetricUnits

namespace Prefix
open Format

theorem ratioPositive {p q : Prefix} (source : p.isValid) (target : q.isValid) : 0 < ratio p q := by
  have least := (factorBounds p ((memAllIff p).mpr source)).1
  have most := (factorBounds q ((memAllIff q).mpr target)).2
  have extremes : yobi.factor.magnitude ≤ nano.factor.magnitude * double.one := by decide +kernel
  have divisor : 0 < q.factor.magnitude :=
    Nat.pos_of_ne_zero (Binary.positiveFinite (factorPositive q ((memAllIff q).mpr target))).1
  have quotient : 1 * q.factor.magnitude ≤ p.factor.magnitude * double.one := by
    have scaled := Nat.mul_le_mul_right double.one least
    omega
  -- the quotient is at least one step, and a step is not rounded down
  have rounded := roundMagnitudeMono (f := double) divisor quotient
  rwa [double.roundMagnitudeScale 1 divisor, roundMagnitudeFits (by decide)] at rounded

end Prefix

namespace Conversion
open Prefix

def Rising (c : Conversion) : Prop := ∀ k ∈ c.factor?, k.isPositive

inductive Offered : Conversion → Prop
  | prefixes {p q : Prefix} (source : p.isValid) (target : q.isValid) : Offered (p.conversion q)
  | celsius : Offered .celsiusToFahrenheit
  | fahrenheit : Offered .fahrenheitToCelsius

theorem Offered.rising {c : Conversion} (offered : Offered c) : c.Rising := by
  cases offered with
  | @prefixes p q source target =>
    intro k given
    by_cases same : p = q
    · have identity : p.conversion q = .identity := by simp [Prefix.conversion, same]
      rw [identity] at given
      obtain rfl : one = k := Option.some.inj given
      decide +kernel
    · obtain ⟨fits, scale⟩ := conversionScale source target same (ratioBelow source target)
      rw [scale] at given
      obtain rfl : Binary.finite false (ratio p q) fits = k := Option.some.inj given
      exact decide_eq_true (Nat.ne_of_gt (ratioPositive source target))
  | celsius => simp [Rising, factor?]
  | fahrenheit => simp [Rising, factor?]

theorem Offered.bounded {c : Conversion} (offered : Offered c) : c.Bounded := by
  cases offered with
  | prefixes _ _ => exact conversionBounded _ _
  | celsius => exact temperaturesBounded.1
  | fahrenheit => exact temperaturesBounded.2

variable {c : Conversion}

theorem applyDoubleAtMost (rising : c.Rising) {x y : Double} (le : Binary.AtMost x y) :
    Binary.AtMost (c.applyDouble x) (c.applyDouble y) := by
  obtain ⟨_, ratio, offset⟩ := degreesPositive
  cases c with
  | identity => exact le
  | scale k => exact Binary.mulAtMost (rising k rfl) le
  | celsiusToFahrenheit => exact Binary.addAtMost offset (Binary.mulAtMost ratio le)
  | fahrenheitToCelsius => exact Binary.divAtMost ratio (Binary.subAtMost offset le)

variable {t : IntegerType} {v w : t.Value}

theorem applyIntegerPlain (plain : c.isIdentity = false) (v : t.Value) :
    (c.applyInteger v).val = (c.applyDouble (.ofInt .double v.val)).truncate t.least t.greatest := by
  unfold applyInteger apply
  rw [plain]
  rfl

theorem applyIntegerIdentity (identity : c.isIdentity) (v : t.Value) : c.applyInteger v = v :=
  if_pos identity

theorem applyIntegerMono (rising : c.Rising) (le : v.val ≤ w.val) :
    (c.applyInteger v).val ≤ (c.applyInteger w).val := by
  cases identity : c.isIdentity with
  | true => rwa [applyIntegerIdentity identity, applyIntegerIdentity identity]
  | false =>
    rw [applyIntegerPlain identity, applyIntegerPlain identity]
    exact Binary.truncateAtMost t.leastLe t.greatestGe
      (applyDoubleAtMost rising (Binary.ofIntAtMost .double le))

def applyAll (cs : List Conversion) (v : t.Value) : t.Value :=
  cs.foldl (fun n c => c.applyInteger n) v

theorem applyAllMono {cs : List Conversion} (rising : ∀ c ∈ cs, c.Rising) (le : v.val ≤ w.val) :
    (applyAll cs v).val ≤ (applyAll cs w).val := by
  induction cs generalizing v w with
  | nil => exact le
  | cons c cs ih =>
    have head := applyIntegerMono (rising c List.mem_cons_self) le
    exact ih (fun d member => rising d (List.mem_cons_of_mem c member)) head

structure Cut (t : IntegerType) (x : Double) (n : Int) : Prop where
  finite : x.isFinite
  high : t.greatest ≤ x.exact → n = t.greatest
  low : x.exact ≤ t.least → n = t.least
  near : t.least ≤ x.exact → x.exact ≤ t.greatest → |(n : ℚ) - x.exact| < 1

theorem widenedUpTo (v : t.Value) : (Binary.ofInt .double v.val).UpTo moderate := by
  have bounds : -2 ^ 128 ≤ t.least ∧ t.greatest ≤ 2 ^ 128 := by cases t <;> decide
  have room : 2 * (2 ^ 128 * Format.double.one) + 1 ≤ moderate := by decide +kernel
  have below : moderate < Format.double.limit := by decide +kernel
  obtain ⟨least, greatest⟩ := v.holds
  have magnitude : v.val.natAbs ≤ 2 ^ 128 := by omega
  have steps := Nat.mul_le_mul_right Format.double.one magnitude
  refine Binary.roundUpTo _ ?_ below
  rw [Nat.div_one]
  omega

theorem appliedCut (bounded : c.Bounded) (plain : c.isIdentity = false) (v : t.Value) :
    Cut t (c.applyDouble (.ofInt .double v.val)) (c.applyInteger v).val := by
  have finite := applyDoubleFinite bounded (widenedUpTo v)
  rw [applyIntegerPlain plain]
  exact ⟨finite, Binary.truncateHigh finite (Int.le_trans t.leastLe t.greatestGe), Binary.truncateLow finite,
    Binary.truncateNear finite⟩

theorem integersInOrder (t : IntegerType) :
    (∀ c, Offered c → ∀ v w : t.Value, v.val ≤ w.val → (c.applyInteger v).val ≤ (c.applyInteger w).val) ∧
    (∀ cs, (∀ c ∈ cs, Offered c) → ∀ v w : t.Value, v.val ≤ w.val →
      (applyAll cs v).val ≤ (applyAll cs w).val ∧
      ((applyAll cs v).val = t.greatest → (applyAll cs w).val = t.greatest) ∧
      ((applyAll cs w).val = t.least → (applyAll cs v).val = t.least)) ∧
    ∀ c, Offered c → ∀ v : t.Value,
      c.isIdentity = true ∧ c.applyInteger v = v ∨
      c.isIdentity = false ∧ Cut t (c.applyDouble (.ofInt .double v.val)) (c.applyInteger v).val := by
  refine ⟨fun c offered v w le => applyIntegerMono offered.rising le, ?_, ?_⟩
  · intro cs offered v w le
    have ordered := applyAllMono (fun c member => (offered c member).rising) le
    have most := (applyAll cs w).holds.2
    have least := (applyAll cs v).holds.1
    exact ⟨ordered, by omega, by omega⟩
  · intro c offered v
    cases identity : c.isIdentity with
    | true => exact .inl ⟨rfl, applyIntegerIdentity identity v⟩
    | false => exact .inr ⟨rfl, appliedCut offered.bounded identity v⟩

/- Of the larger two the results are equal: both widen to the same double, and its multiple is beyond
the type. -/
theorem thousandsInOrder :
    let c := Prefix.kilo.conversion .base
    let chain := [.celsiusToFahrenheit, c]
    let one : IntegerType.int64.Value := ⟨1, by decide⟩
    let two : IntegerType.int64.Value := ⟨2, by decide⟩
    let v : IntegerType.int64.Value := ⟨9223372036854775806, by decide⟩
    let w : IntegerType.int64.Value := ⟨9223372036854775807, by decide⟩
    (Offered c ∧ c.isIdentity = false ∧ one.val ≤ two.val ∧ v.val ≤ w.val) ∧
    ((c.applyInteger one).val ≤ (c.applyInteger two).val ∧
      (c.applyInteger one).val = 1000 ∧ (c.applyInteger two).val = 2000) ∧
    ((applyAll chain one).val ≤ (applyAll chain two).val ∧
      (applyAll chain one).val = 33000 ∧ (applyAll chain two).val = 35000) ∧
    (c.applyInteger v).val ≤ (c.applyInteger w).val ∧ (applyAll chain v).val ≤ (applyAll chain w).val ∧
    Cut .int64 (c.applyDouble (.ofInt .double v.val)) (c.applyInteger v).val := by
  intro c chain one two v w
  have offered : Offered c := .prefixes (by decide) (by decide)
  have plain : c.isIdentity = false := by decide +kernel
  have small : one.val ≤ two.val := by decide
  have large : v.val ≤ w.val := by decide
  have each : ∀ d ∈ chain, Offered d := by
    intro d member
    rcases List.mem_cons.mp member with rfl | member
    · exact .celsius
    · exact List.mem_singleton.mp member ▸ offered
  have multiples : (c.applyInteger one).val = 1000 ∧ (c.applyInteger two).val = 2000 := by decide +kernel
  have degrees : (applyAll chain one).val = 33000 ∧ (applyAll chain two).val = 35000 := by decide +kernel
  obtain ⟨single, all, cut⟩ := integersInOrder .int64
  have cut := (cut c offered v).resolve_left fun identity => by simp [plain] at identity
  exact ⟨⟨offered, plain, small, large⟩, ⟨single c offered one two small, multiples⟩,
    ⟨(all chain each one two small).1, degrees⟩, single c offered v w large, (all chain each v w large).1,
    cut.2⟩

end Conversion
end MetricUnits

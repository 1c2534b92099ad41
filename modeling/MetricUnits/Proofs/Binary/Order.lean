import Mathlib.Algebra.Order.Field.Rat
import Mathlib.Tactic.Linarith
import MetricUnits.Proofs.Scaling.Overflow

/-! The order of binary numbers. Rounding keeps the order of exact results, so arithmetic keeps the order
of its operands, also where a result is infinite, and so does truncation: a value within the bounds goes
to a whole number less than one away, and a value beyond a bound goes to the bound. -/
namespace MetricUnits

namespace Binary
variable {f : Format} {x : Binary f} {lo hi : Int}

def exact (x : Binary f) : ℚ := x.steps / f.one

theorem exactSteps (x : Binary f) : x.exact * f.one = x.steps := by
  have one : (f.one : ℚ) ≠ 0 := Nat.cast_ne_zero.mpr (Nat.ne_of_gt f.onePos)
  exact div_mul_cancel₀ _ one

theorem wholePartSteps (s : Bool) {m : Nat} (h : f.Fits m) :
    wholePart f s m = (finite s m h).steps.tdiv f.one := by
  cases s with
  | false => exact Int.ofNat_tdiv m f.one
  | true =>
    have quotient : ((m / f.one : Nat) : Int) = (m : Int).tdiv f.one := Int.ofNat_tdiv m f.one
    simp only [wholePart, steps, Int.neg_tdiv, if_true, quotient]

theorem truncateSteps (finite : x.isFinite) :
    x.truncate lo hi = clamp lo hi (x.steps.tdiv f.one) := by
  cases x with
  | finite s m h => rw [truncate, wholePartSteps s h]
  | _ => contradiction

theorem leExact (n : Int) : (n : ℚ) ≤ x.exact ↔ n * f.one ≤ x.steps := by
  have one : (0 : ℚ) < f.one := Nat.cast_pos.mpr f.onePos
  rw [exact, le_div_iff₀ one]
  exact_mod_cast Iff.rfl

theorem exactLe (n : Int) : x.exact ≤ n ↔ x.steps ≤ n * f.one := by
  have one : (0 : ℚ) < f.one := Nat.cast_pos.mpr f.onePos
  rw [exact, div_le_iff₀ one]
  exact_mod_cast Iff.rfl

theorem tdivMultiple (n : Int) : (n * f.one).tdiv f.one = n :=
  Int.mul_tdiv_cancel n (Int.natCast_ne_zero.mpr (Nat.ne_of_gt f.onePos))

theorem truncateHigh (finite : x.isFinite) (ordered : lo ≤ hi) (beyond : (hi : ℚ) ≤ x.exact) :
    x.truncate lo hi = hi := by
  have whole := Int.tdiv_le_tdiv (Int.natCast_pos.mpr f.onePos) ((leExact hi).mp beyond)
  rw [tdivMultiple] at whole
  rw [truncateSteps finite, clamp]
  omega

theorem truncateLow (finite : x.isFinite) (beyond : x.exact ≤ lo) :
    x.truncate lo hi = lo := by
  have whole := Int.tdiv_le_tdiv (Int.natCast_pos.mpr f.onePos) ((exactLe lo).mp beyond)
  rw [tdivMultiple] at whole
  rw [truncateSteps finite, clamp]
  omega

theorem truncateNear (finite : x.isFinite) (least : (lo : ℚ) ≤ x.exact) (greatest : x.exact ≤ hi) :
    |(x.truncate lo hi : ℚ) - x.exact| < 1 := by
  have one : (0 : Int) < f.one := Int.natCast_pos.mpr f.onePos
  have low := Int.tdiv_le_tdiv one ((leExact lo).mp least)
  have high := Int.tdiv_le_tdiv one ((exactLe hi).mp greatest)
  rw [tdivMultiple] at low high
  have inside : x.truncate lo hi = x.steps.tdiv f.one := by
    rw [truncateSteps finite, clamp]
    omega
  have parts : ((x.steps.tdiv f.one : Int) : ℚ) * f.one + (x.steps.tmod f.one : Int) = x.exact * f.one := by
    rw [exactSteps]
    exact_mod_cast Int.tdiv_mul_add_tmod x.steps f.one
  have above : ((x.steps.tmod f.one : Int) : ℚ) < f.one := by
    exact_mod_cast Int.tmod_lt_of_pos x.steps one
  have below : -(f.one : ℚ) < (x.steps.tmod f.one : Int) := by
    exact_mod_cast Int.lt_tmod_of_pos x.steps one
  have unit : (0 : ℚ) < f.one := Nat.cast_pos.mpr f.onePos
  rw [inside, abs_sub_lt_iff]
  constructor
  · exact lt_of_mul_lt_mul_right (by linarith) unit.le
  · exact lt_of_mul_lt_mul_right (by linarith) unit.le

end Binary

theorem nearestLeIff (n c : Nat) {d : Nat} (pos : 0 < d) :
    nearest n d ≤ c ↔ 2 * n < 2 * (c * d) + d ∨ 2 * n = 2 * (c * d) + d ∧ c % 2 = 0 := by
  have parts : n / d * d + n % d = n := Nat.div_add_mod' n d
  have less : n % d < d := Nat.mod_lt n pos
  unfold nearest
  rcases Nat.lt_trichotomy (n / d) c with below | equal | above
  · have room : (n / d + 1) * d ≤ c * d := Nat.mul_le_mul_right d below
    rw [Nat.add_one_mul] at room
    split <;> omega
  · rw [equal] at parts ⊢
    split <;> omega
  · have room : (c + 1) * d ≤ n / d * d := Nat.mul_le_mul_right d above
    rw [Nat.add_one_mul] at room
    split <;> omega

theorem nearestMono {m n d : Nat} (pos : 0 < d) (le : m ≤ n) : nearest m d ≤ nearest n d := by
  have upper := (nearestLeIff n (nearest n d) pos).mp (Nat.le_refl _)
  refine (nearestLeIff m (nearest n d) pos).mpr ?_
  omega

namespace Format
variable {f : Format} {m n d b : Nat}

theorem alignedMultiple (aligned : f.step (n / d) ∣ b) :
    ∃ c, b = c * f.step (n / d) ∧ b * d = c * (d * f.step (n / d)) := by
  obtain ⟨c, equal⟩ := aligned
  have multiple : b = c * f.step (n / d) := by rw [equal, Nat.mul_comm]
  refine ⟨c, multiple, ?_⟩
  rw [multiple, Nat.mul_assoc, Nat.mul_comm d]

theorem roundMagnitudeLeAligned (pos : 0 < d) (aligned : f.step (n / d) ∣ b) (le : n ≤ b * d) :
    f.roundMagnitude n d ≤ b := by
  obtain ⟨c, multiple, scaled⟩ := alignedMultiple aligned
  have unit : 0 < d * f.step (n / d) := Nat.mul_pos pos (f.stepPos _)
  have kept := nearestMono unit (scaled ▸ le)
  rw [nearestMul c unit] at kept
  rw [multiple]
  exact Nat.mul_le_mul_right _ kept

theorem leRoundMagnitudeAligned (pos : 0 < d) (aligned : f.step (n / d) ∣ b) (le : b * d ≤ n) :
    b ≤ f.roundMagnitude n d := by
  obtain ⟨c, multiple, scaled⟩ := alignedMultiple aligned
  have unit : 0 < d * f.step (n / d) := Nat.mul_pos pos (f.stepPos _)
  have kept := nearestMono unit (scaled ▸ le)
  rw [nearestMul c unit] at kept
  rw [multiple]
  exact Nat.mul_le_mul_right _ kept

/- Between quotients with different steps lies a power of two, and rounding crosses it on neither side. -/
theorem roundMagnitudeAcross (pos : 0 < d) (less : f.spacing (m / d) < f.spacing (n / d)) :
    f.roundMagnitude m d ≤ f.roundMagnitude n d := by
  have precise := f.precision_pos
  unfold spacing at less
  have nonzero : n / d ≠ 0 := fun zero => by
    rw [zero, Nat.log2_zero] at less
    omega
  have power : 2 ^ (n / d).log2 ≤ n / d := Nat.log2_self_le nonzero
  have below : m / d < 2 ^ (n / d).log2 :=
    Nat.lt_of_lt_of_le Nat.lt_log2_self (Nat.pow_le_pow_right (by decide) (by omega))
  have source : f.step (m / d) ∣ 2 ^ (n / d).log2 := by
    rw [step, Nat.one_shiftLeft]
    exact Nat.pow_dvd_pow 2 (by unfold spacing; omega)
  have target : f.step (n / d) ∣ 2 ^ (n / d).log2 := by
    rw [step, Nat.one_shiftLeft]
    exact Nat.pow_dvd_pow 2 (by unfold spacing; omega)
  calc f.roundMagnitude m d
      ≤ 2 ^ (n / d).log2 :=
        roundMagnitudeLeAligned pos source (Nat.le_of_lt ((Nat.div_lt_iff_lt_mul pos).mp below))
    _ ≤ f.roundMagnitude n d :=
        leRoundMagnitudeAligned pos target ((Nat.le_div_iff_mul_le pos).mp power)

theorem roundMagnitudeMono (pos : 0 < d) (le : m ≤ n) : f.roundMagnitude m d ≤ f.roundMagnitude n d := by
  have quotients : m / d ≤ n / d := Nat.div_le_div_right le
  rcases Nat.lt_or_eq_of_le (spacingMono (f := f) quotients) with less | equal
  · exact roundMagnitudeAcross pos less
  · have same : f.step (m / d) = f.step (n / d) := by rw [step, equal, step]
    rw [roundMagnitude, roundMagnitude, same]
    exact Nat.mul_le_mul_right _ (nearestMono (Nat.mul_pos pos (f.stepPos _)) le)

end Format

namespace Binary
variable {f : Format}

/-- The order of values. The two zeros are equal in it, and `nan` has no place. -/
inductive AtMost : Binary f → Binary f → Prop
  | lowest {y : Binary f} (defined : y.Defined) : AtMost (.infinite true) y
  | highest {x : Binary f} (defined : x.Defined) : AtMost x (.infinite false)
  | finite {s m h t n k} (le : (Binary.finite s m h).steps ≤ (Binary.finite t n k).steps) :
      AtMost (.finite s m h) (.finite t n k)

variable {x y z : Binary f}

theorem AtMost.trans (left : AtMost x y) (right : AtMost y z) : AtMost x z := by
  cases left with
  | lowest _ =>
    cases right with
    | lowest defined => exact .lowest defined
    | highest _ => exact .lowest nofun
    | finite _ => exact .lowest nofun
  | highest defined =>
    cases right with
    | highest _ => exact .highest defined
  | finite le =>
    cases right with
    | highest _ => exact .highest nofun
    | finite next => exact .finite (Int.le_trans le next)

theorem negDefined (defined : x.Defined) : x.neg.Defined := by
  cases x with
  | nan => exact defined
  | infinite s => nofun
  | finite s m h => nofun

theorem stepsNeg (s : Bool) {m : Nat} (h : f.Fits m) : (finite (!s) m h).steps = -(finite s m h).steps := by
  cases s <;> simp [steps]

theorem AtMost.neg (le : AtMost x y) : AtMost y.neg x.neg := by
  cases le with
  | lowest defined => exact .highest (negDefined defined)
  | highest defined => exact .lowest (negDefined defined)
  | finite le =>
    refine .finite ?_
    rw [stepsNeg, stepsNeg]
    exact Int.neg_le_neg le

def withSign (negative : Bool) (magnitude : Nat) : Int := if negative then -magnitude else magnitude

theorem stepsFinite (s : Bool) {m : Nat} (h : f.Fits m) : (finite s m h).steps = withSign s m := by
  cases s <;> rfl

theorem roundSteps {s : Bool} {n d : Nat} (finite : (round f s n d).isFinite) :
    (round f s n d).steps = withSign s (f.roundMagnitude n d) := by
  unfold round at finite ⊢
  split
  · exact stepsFinite s _
  · rename_i large
    rw [dif_neg large] at finite
    contradiction

theorem roundNeg (f : Format) (n d : Nat) : (round f false n d).neg = round f true n d := by
  unfold round
  split <;> rfl

theorem roundZero (f : Format) (s : Bool) {d : Nat} (pos : 0 < d) : round f s 0 d = zero s := by
  have magnitude : f.roundMagnitude 0 d = 0 :=
    Nat.le_zero.mp (Format.roundMagnitudeLeAligned pos (Nat.dvd_zero _) (Nat.zero_le _))
  simp only [round, magnitude, f.limitPos, dif_pos, zero]

theorem roundUpward (f : Format) {m n d : Nat} (pos : 0 < d) (le : m ≤ n) :
    AtMost (round f false m d) (round f false n d) := by
  have magnitudes := f.roundMagnitudeMono pos le
  by_cases small : f.roundMagnitude n d < f.limit
  · rw [round, round, dif_pos small, dif_pos (Nat.lt_of_le_of_lt magnitudes small)]
    exact .finite (Int.ofNat_le.mpr magnitudes)
  · have infinite : round f false n d = .infinite false := dif_neg small
    rw [infinite]
    exact .highest (roundDefined _ _ _)

theorem roundAtMost (f : Format) {s t : Bool} {m n d : Nat} (pos : 0 < d)
    (le : withSign s m ≤ withSign t n) : AtMost (round f s m d) (round f t n d) := by
  have downward {m n : Nat} (le : m ≤ n) : AtMost (round f true n d) (round f true m d) := by
    rw [← roundNeg, ← roundNeg]
    exact (roundUpward f pos le).neg
  have zeros (s t : Bool) : AtMost (zero s : Binary f) (zero t) :=
    .finite (by simp [stepsFinite, withSign])
  -- a zero may have either sign, so signs alone do not tell the order
  have fromZero (s : Bool) : AtMost (round f s 0 d) (round f false n d) := by
    refine AtMost.trans ?_ (roundUpward f pos (Nat.zero_le n))
    rw [roundZero f s pos, roundZero f false pos]
    exact zeros s false
  cases s with
  | false =>
    cases t with
    | false => exact roundUpward f pos (Int.ofNat_le.mp le)
    | true =>
      obtain ⟨rfl, rfl⟩ : m = 0 ∧ n = 0 := by
        simp only [withSign, if_true, if_neg Bool.false_ne_true] at le
        omega
      rw [roundZero f false pos, roundZero f true pos]
      exact zeros false true
  | true =>
    cases t with
    | false => exact (downward (Nat.zero_le m)).trans (fromZero true)
    | true => exact downward (Int.ofNat_le.mp (Int.neg_le_neg_iff.mp le))

theorem withSignNatAbs (n : Int) : withSign (n < 0) n.natAbs = n := by
  unfold withSign
  split <;> rename_i sign <;> simp only [decide_eq_true_eq] at sign <;> omega

theorem withSignMul (s : Bool) (m k : Nat) : withSign s (m * k) = withSign s m * k := by
  cases s <;> simp [withSign]

theorem ofIntAtMost (f : Format) {a b : Int} (le : a ≤ b) : AtMost (ofInt f a) (ofInt f b) := by
  refine roundAtMost f Nat.zero_lt_one ?_
  rw [withSignMul, withSignMul, withSignNatAbs, withSignNatAbs]
  exact Int.mul_le_mul_of_nonneg_right le (Int.natCast_nonneg _)

theorem ofStepsRound (f : Format) (s : Bool) (n : Int) :
    ∃ t, withSign t n.natAbs = n ∧ ofSteps f s n = round f t n.natAbs 1 := by
  unfold ofSteps
  split
  case isTrue zero =>
    subst zero
    refine ⟨s, by simp [withSign], (roundZero f s Nat.zero_lt_one).symm⟩
  case isFalse => exact ⟨n < 0, withSignNatAbs n, rfl⟩

theorem ofStepsAtMost (f : Format) (s t : Bool) {a b : Int} (le : a ≤ b) :
    AtMost (ofSteps f s a) (ofSteps f t b) := by
  obtain ⟨_, left, leftRound⟩ := ofStepsRound f s a
  obtain ⟨_, right, rightRound⟩ := ofStepsRound f t b
  rw [leftRound, rightRound]
  exact roundAtMost f Nat.zero_lt_one (by rwa [left, right])

theorem ofStepsFits (s : Bool) {n : Int} (fits : f.Fits n.natAbs) :
    ∃ t h, withSign t n.natAbs = n ∧ ofSteps f s n = .finite t n.natAbs h := by
  obtain ⟨t, sign, rounded⟩ := ofStepsRound f s n
  refine ⟨t, fits, sign, ?_⟩
  rw [rounded, ← roundFits t fits Nat.zero_lt_one, Nat.mul_one]

theorem ofStepsExact (s : Bool) {n : Int} (fits : f.Fits n.natAbs) :
    (ofSteps f s n).isFinite ∧ (ofSteps f s n).steps = n := by
  obtain ⟨t, h, sign, exact⟩ := ofStepsFits s fits
  rw [exact, stepsFinite]
  exact ⟨rfl, sign⟩

theorem AtMost.between {lo hi : Int} (least : AtMost x y) (greatest : AtMost y z)
    (low : x.isFinite ∧ x.steps = lo) (high : z.isFinite ∧ z.steps = hi) :
    y.isFinite ∧ lo ≤ y.steps ∧ y.steps ≤ hi := by
  obtain ⟨xFinite, rfl⟩ := low
  obtain ⟨zFinite, rfl⟩ := high
  cases least with
  | lowest _ => contradiction
  | highest _ =>
    cases greatest with
    | highest _ => contradiction
  | finite le =>
    cases greatest with
    | highest _ => contradiction
    | finite next => exact ⟨rfl, le, next⟩

theorem ofStepsBetween (s : Bool) {lo n hi : Int} (low : lo ≤ n) (high : n ≤ hi)
    (least : f.Fits lo.natAbs) (greatest : f.Fits hi.natAbs) :
    (ofSteps f s n).isFinite ∧ lo ≤ (ofSteps f s n).steps ∧ (ofSteps f s n).steps ≤ hi :=
  AtMost.between (ofStepsAtMost f s s low) (ofStepsAtMost f s s high) (ofStepsExact s least)
    (ofStepsExact s greatest)

theorem addAtMost (finite : z.isFinite) (le : AtMost x y) : AtMost (x + z) (y + z) := by
  cases z with
  | finite r l g =>
    cases le with
    | lowest defined => exact .lowest (addDefined defined finite)
    | highest defined => exact .highest (addDefined defined finite)
    | finite le => exact ofStepsAtMost f _ _ (Int.add_le_add_right le _)
  | _ => contradiction

theorem subAtMost (finite : z.isFinite) (le : AtMost x y) : AtMost (x - z) (y - z) :=
  addAtMost (negFinite finite) le

theorem mulInfinite (s : Bool) (positive : z.isPositive) : Binary.infinite s * z = .infinite s := by
  obtain ⟨nonzero, fits, equal⟩ := positiveFinite positive
  rw [equal]
  refine (if_neg nonzero).trans ?_
  rw [Bool.xor_false]

theorem mulFinite (s : Bool) {m : Nat} (h : f.Fits m) (positive : z.isPositive) :
    Binary.finite s m h * z = round f s (m * z.magnitude) f.one := by
  obtain ⟨_, fits, equal⟩ := positiveFinite positive
  have product : Binary.finite s m h * .finite false z.magnitude fits =
      round f (s ^^ false) (m * z.magnitude) f.one := rfl
  rw [← equal, Bool.xor_false] at product
  exact product

theorem mulPositiveDefined (defined : x.Defined) (positive : z.isPositive) : (x * z).Defined := by
  cases x with
  | nan => exact absurd rfl defined
  | infinite s =>
    rw [mulInfinite s positive]
    nofun
  | finite s m h =>
    rw [mulFinite s h positive]
    exact roundDefined _ _ _

theorem mulAtMost (positive : z.isPositive) (le : AtMost x y) : AtMost (x * z) (y * z) := by
  cases le with
  | lowest defined =>
    rw [mulInfinite true positive]
    exact .lowest (mulPositiveDefined defined positive)
  | highest defined =>
    rw [mulInfinite false positive]
    exact .highest (mulPositiveDefined defined positive)
  | finite le =>
    rw [mulFinite _ _ positive, mulFinite _ _ positive]
    refine roundAtMost f f.onePos ?_
    rw [stepsFinite, stepsFinite] at le
    rw [withSignMul, withSignMul]
    exact Int.mul_le_mul_of_nonneg_right le (Int.natCast_nonneg _)

theorem divInfinite (s : Bool) (positive : z.isPositive) : Binary.infinite s / z = .infinite s := by
  obtain ⟨_, fits, equal⟩ := positiveFinite positive
  rw [equal]
  exact congrArg Binary.infinite (Bool.xor_false s)

theorem divAtMost (positive : z.isPositive) (le : AtMost x y) : AtMost (x / z) (y / z) := by
  cases le with
  | lowest defined =>
    rw [divInfinite true positive]
    exact .lowest (divDefined defined positive)
  | highest defined =>
    rw [divInfinite false positive]
    exact .highest (divDefined defined positive)
  | finite le =>
    rw [divRound _ positive, divRound _ positive]
    refine roundAtMost f (Nat.pos_of_ne_zero (positiveFinite positive).1) ?_
    rw [stepsFinite, stepsFinite] at le
    rw [withSignMul, withSignMul]
    exact Int.mul_le_mul_of_nonneg_right le (Int.natCast_nonneg _)

theorem truncateAtMost {lo hi : Int} (low : lo ≤ 0) (high : 0 ≤ hi) (le : AtMost x y) :
    x.truncate lo hi ≤ y.truncate lo hi := by
  cases le with
  | lowest _ => exact (truncateMem low high y).1
  | highest _ => exact (truncateMem low high x).2
  | finite le =>
    have whole := Int.tdiv_le_tdiv (Int.natCast_pos.mpr f.onePos) le
    rw [truncateSteps rfl, truncateSteps rfl, clamp, clamp]
    omega

end Binary

end MetricUnits

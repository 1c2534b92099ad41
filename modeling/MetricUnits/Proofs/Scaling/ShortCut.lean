import MetricUnits.Proofs.Binary.Widening
import MetricUnits.Proofs.Scaling.Integers
import MetricUnits.Proofs.Scaling.Order

/-! Identities, applied as a short cut and through doubles. The detour loses the integers that are the value
of no double. The end of a type is restored, as it is rounded beyond the type and cut back to its bound. -/
namespace MetricUnits

namespace IntegerType
open Binary
variable {t : IntegerType}

theorem smallRepresented {n : Int} (small : t.bits ≤ 32) (held : t.Holds n) : Represents .double n := by
  refine wholeRepresented ?_
  obtain ⟨least, greatest⟩ := held
  have bounds : -2 ^ 32 ≤ t.least ∧ t.greatest ≤ 2 ^ 32 := by
    cases t <;> first | decide | contradiction
  unfold Format.wholeLimit
  omega

theorem leastRepresented (t : IntegerType) : Represents .double t.least := by
  rw [representsIff]
  cases t <;> decide +kernel

theorem greatestBack (t : IntegerType) :
    (ofInt .double t.greatest).truncate t.least t.greatest = t.greatest := by
  cases t <;> decide +kernel

theorem backIff (v : t.Value) :
    (ofInt .double v.val).truncate t.least t.greatest = v.val ↔
      Represents .double v.val ∨ v.val = t.greatest := by
  obtain ⟨least, greatest⟩ := v.holds
  constructor
  · intro back
    have finite := (Conversion.widenedUpTo v).1
    obtain ⟨k, whole, represented⟩ := ofIntSteps finite
    rw [truncateSteps finite, whole, tdivMultiple] at back
    by_contra excluded
    obtain ⟨lost, inner⟩ := not_or.mp excluded
    have other : k ≠ v.val := fun equal => lost (equal ▸ represented)
    -- the least number of the type is a double's, so the number lies strictly between the bounds
    have notLeast : v.val ≠ t.least := fun equal => lost (equal ▸ leastRepresented t)
    unfold clamp at back
    omega
  · rintro (represented | last)
    · obtain ⟨finite, whole⟩ := ofIntRepresented represented
      rw [truncateSteps finite, whole, tdivMultiple]
      unfold clamp
      omega
    · rw [last]
      exact greatestBack t

end IntegerType

namespace Sample
variable {s : Sample} {t : IntegerType} {n : Int} {g : Double → Double}

/-- A sample that does not survive doubles: no double has its number, and no bound restores it. -/
structure Blurs (s : Sample) (t : IntegerType) (n : Int) : Prop extends s.Holds t n where
  wide : t.bits = 64
  lost : ¬ Binary.Represents .double n
  inner : n ≠ t.greatest

def Blurred (s : Sample) : Prop := ∃ t n, s.Blurs t n

theorem unchangedOrHolds (plain : ∀ x, g x = x) (s : Sample) : s.map g = s ∨ ∃ t n, s.Holds t n := by
  obtain ⟨type, x⟩ := s
  cases type with
  | float64 => exact .inl (congrArg ofDouble (plain x))
  | float32 =>
    have detour := congrArg (fun y => ofSingle (y.convert .single)) (plain (x.convert .double))
    exact .inl (detour.trans (congrArg ofSingle (Binary.singleBack x)))
  | int32 | int64 | uint32 | uint64 | isize | usize => exact .inr ⟨_, _, rfl, rfl⟩

theorem Holds.bits (holds : s.Holds t n) : t.bits ≤ 32 ∨ t.bits = 64 := by
  have integer := holds.type
  generalize s.type = type at integer
  cases type <;> cases integer <;> decide

theorem Holds.back (holds : s.Holds t n) (plain : ∀ x, g x = x) :
    (s.map g).Holds t ((Binary.ofInt .double n).truncate t.least t.greatest) := by
  have mapped := holds.mapped g
  rwa [plain] at mapped

theorem Holds.backIff (holds : s.Holds t n) :
    (Binary.ofInt .double n).truncate t.least t.greatest = n ↔
      Binary.Represents .double n ∨ n = t.greatest :=
  IntegerType.backIff ⟨n, holds.held⟩

theorem Holds.unchangedIff (holds : s.Holds t n) (plain : ∀ x, g x = x) :
    s.map g = s ↔ Binary.Represents .double n ∨ n = t.greatest := by
  have mapped := holds.back plain
  rw [← holds.backIff]
  constructor
  · intro same
    rw [same] at mapped
    exact Option.some.inj (mapped.number.symm.trans holds.number)
  · intro back
    rw [back] at mapped
    exact mapped.same holds rfl

theorem unchangedIff (plain : ∀ x, g x = x) (s : Sample) : s.map g = s ↔ ¬ s.Blurred := by
  constructor
  · rintro same ⟨t, n, blurs⟩
    exact ((blurs.unchangedIff plain).mp same).elim blurs.lost blurs.inner
  · intro clear
    rcases s.unchangedOrHolds plain with same | ⟨t, n, holds⟩
    · exact same
    · by_contra changed
      obtain ⟨lost, inner⟩ := not_or.mp ((holds.unchangedIff plain).not.mp changed)
      have wide : t.bits = 64 := holds.bits.resolve_left fun small =>
        lost (IntegerType.smallRepresented small holds.held)
      exact clear ⟨t, n, holds, wide, lost, inner⟩

end Sample

namespace Binary
variable {f : Format} {x y : Binary f}

theorem sameValuePositive (positive : y.isPositive) (same : x.sameValue y) : x = y := by
  obtain ⟨nonzero, fits, equal⟩ := positiveFinite positive
  generalize y.magnitude = m at nonzero fits equal
  subst equal
  cases x with
  | finite s k h =>
    have steps : (finite s k h).steps = m := of_decide_eq_true same
    cases s with
    | false =>
      obtain rfl : k = m := Int.ofNat_inj.mp steps
      rfl
    | true =>
      have opposite : -(k : Int) = m := steps
      omega
  | _ => contradiction

end Binary

namespace Conversion
variable {c : Conversion}

theorem onePositive : one.isPositive := by decide +kernel

theorem oneMagnitude : one.magnitude = Format.double.one := by
  obtain ⟨fits, whole⟩ := oneWhole
  rw [whole, Binary.magnitude]

theorem mulOne (x : Double) : x * one = x := by
  cases x with
  | nan => rfl
  | infinite s => exact Binary.mulInfinite s onePositive
  | finite s m h =>
    rw [Binary.mulFinite s h onePositive, oneMagnitude, Binary.roundFits s h Format.double.onePos]

theorem identityDouble (identity : c.isIdentity) (x : Double) : c.applyDouble x = x := by
  cases c with
  | identity => rfl
  | scale k =>
    have same : k.sameValue one := identity
    rw [applyDouble, Binary.sameValuePositive onePositive same, mulOne]
  | _ => contradiction

theorem identityShortCut (c : Conversion) :
    (∀ t x, c.applySample ⟨t, x⟩ = ⟨t, c.apply t.representation x⟩) ∧
    (c.isIdentity → ∀ s : Sample, c.applySample s = s ∧ c.toFunction s = s ∧
      (s.map c.applyDouble = s ↔ ¬ s.Blurred) ∧
      ∀ t n, s.Blurs t n → ∃ m, m ≠ n ∧ (s.map c.applyDouble).type = s.type ∧
        (s.map c.applyDouble).Holds t m) := by
  refine ⟨applySampleMk c, fun identity s => ⟨if_pos identity, if_pos identity, ?_, ?_⟩⟩
  · exact s.unchangedIff (identityDouble identity)
  · intro t n blurs
    refine ⟨_, fun back => ?_, rfl, blurs.back (identityDouble identity)⟩
    exact (blurs.backIff.mp back).elim blurs.lost blurs.inner

theorem shortCutKeepsDigits :
    let c := scale one
    let s := Sample.int64 ⟨9007199254740993, by decide⟩
    let last := Sample.int64 ⟨9223372036854775807, by decide⟩
    (c.isIdentity ∧ s.Blurs .int64 9007199254740993) ∧ c.applySample s = s ∧
    s.map c.applyDouble ≠ s ∧ last.map c.applyDouble = last := by
  intro c s last
  have identity : c.isIdentity := by decide +kernel
  have lost : ¬ Binary.Represents .double 9007199254740993 := by
    rw [Binary.representsIff]
    decide +kernel
  have blurs : s.Blurs .int64 9007199254740993 := ⟨⟨rfl, rfl⟩, rfl, lost, by decide⟩
  have clear : ¬ last.Blurred := by
    rintro ⟨t, n, blurs⟩
    obtain rfl := Representation.integer.inj blurs.type
    exact blurs.inner (Option.some.inj blurs.number).symm
  obtain ⟨same, _, changed, _⟩ := (identityShortCut c).2 identity s
  have kept := ((identityShortCut c).2 identity last).2.2.1
  exact ⟨⟨identity, blurs⟩, same, changed.not.mpr (not_not_intro ⟨_, _, blurs⟩), kept.mpr clear⟩

end Conversion
end MetricUnits

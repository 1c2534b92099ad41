import MetricUnits.Proofs.Convertible
import MetricUnits.Proofs.Scaling.Whole

/-! Rescaling of units, and what becomes of the new unit when its short form is read again: the rules of
reading may give it another prefix. Of rescalings one after another each reads the unit back, and still a
run of known prefixes never loses measure or divisor; the first step that fails is the last that counts. -/
namespace MetricUnits

namespace MetricUnit
open Literal

def Reread (p : Prefix) (m : Measure) : Prop :=
  m = .percentage ∧ p ≠ .base ∨ m.isCountLike ∧ p = .milli

instance (p : Prefix) (m : Measure) : Decidable (Reread p m) :=
  inferInstanceAs (Decidable (_ ∨ _))

theorem meantPrefixIff (p : Prefix) (m : Measure) : meantPrefix p m = p ↔ ¬ Reread p m := by
  rw [meantPrefixFixed, Reread, not_or, not_and, not_and, ne_eq, not_not]

theorem parseShortProper {u : MetricUnit} (proper : Proper u) :
    parse u.short = u.withScale (meantPrefix u.scale u.measure) :=
  (parseShort u).trans (writtenReads symbolNaming proper)

theorem rescaleProper {u : MetricUnit} (proper : Proper u) {p : Prefix} (valid : p.isValid) :
    u.rescale p = (u.scale.conversion p, u.withScale p) := by
  have again : (parse u.short).isValid := by
    rw [parseShortProper proper]
    exact (proper.withScale (meantPrefixValid proper.scale _)).valid
  simp only [rescale, proper.valid, again, valid, Bool.and_self, if_true]
  rw [parseShortProper proper]
  rfl

theorem conversionToReread {u : MetricUnit} (proper : Proper u) {p : Prefix} (valid : p.isValid) :
    u.conversionTo (parse (u.withScale p).short) =
      .ok (u.scale.conversion (meantPrefix p u.measure)) := by
  have read : parse (u.withScale p).short = u.withScale (meantPrefix p u.measure) :=
    parseShortProper (proper.withScale valid)
  have target := proper.withScale (meantPrefixValid valid u.measure)
  rw [read, conversionToSame proper.valid target.valid rfl rfl]
  rfl

/- Numbers to tell conversions apart: some conversions cut small ones to zero, and others large ones to
the bound. -/
def probes : List IntegerType.int64.Value := [⟨1, by decide⟩, ⟨1000, by decide⟩, ⟨1000000, by decide⟩]

theorem percentageProbed : ∀ p ∈ Prefix.all, p ≠ .base → ∃ n ∈ probes,
    (Prefix.base.conversion p).applyInteger n ≠ (Prefix.base.conversion .base).applyInteger n := by
  decide +kernel

theorem milliProbed : ∀ s ∈ Prefix.all, s ≠ .milli → ∃ n ∈ probes,
    (s.conversion .milli).applyInteger n ≠ (s.conversion .mega).applyInteger n := by
  decide +kernel

theorem rereadProbed {s p : Prefix} {m : Measure} (source : s.isValid) (target : p.isValid)
    (meant : meantPrefix s m = s) (reread : Reread p m) :
    ∃ n : IntegerType.int64.Value,
      (s.conversion p).applyInteger n ≠ (s.conversion (meantPrefix p m)).applyInteger n := by
  have plain := (meantPrefixIff s m).mp meant
  rcases reread with ⟨rfl, prefixed⟩ | ⟨count, rfl⟩
  · obtain rfl : s = .base := by
      by_contra other
      exact plain (.inl ⟨rfl, other⟩)
    obtain ⟨n, _, differ⟩ := percentageProbed p ((Prefix.memAllIff p).mpr target) prefixed
    exact ⟨n, differ⟩
  · have other : s ≠ .milli := fun milli => plain (.inr ⟨count, milli⟩)
    have mega : meantPrefix .milli m = .mega := by
      cases m <;> first | rfl | contradiction
    obtain ⟨n, _, differ⟩ := milliProbed s ((Prefix.memAllIff s).mpr source) other
    exact ⟨n, mega ▸ differ⟩

end MetricUnit

namespace Measurement
open MetricUnit

def Fails (u : MetricUnit) (token : String) : Prop :=
  u = .invalid ∨ (Prefix.lookup token).isValid = false

end Measurement

end MetricUnits

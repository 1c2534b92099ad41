import MetricUnits.Conversion
import MetricUnits.Proofs.Literal.Units

/-! Which valid units convert into each other. The two temperature measures do so whatever is around
them, and this is why convertibility falls short of an equivalence: by way of the other measure a
temperature comes back to its own with another divisor, where the direct conversion is rejected. -/
namespace MetricUnits.MetricUnit

def Convertible (source target : MetricUnit) : Prop :=
  ∃ c, source.conversionTo target = .ok c

instance (source target : MetricUnit) : Decidable (Convertible source target) :=
  match h : source.conversionTo target with
  | .ok c => .isTrue ⟨c, h⟩
  | .error e => .isFalse fun ⟨c, ok⟩ => by rw [h] at ok; contradiction

def OtherTemperature (m n : Measure) : Prop :=
  m = .temperatureC ∧ n = .temperatureF ∨ m = .temperatureF ∧ n = .temperatureC

instance (m n : Measure) : Decidable (OtherTemperature m n) :=
  inferInstanceAs (Decidable (_ ∨ _))

theorem OtherTemperature.symm {m n : Measure} (other : OtherTemperature m n) :
    OtherTemperature n m := by
  rcases other with ⟨hm, hn⟩ | ⟨hm, hn⟩
  · exact .inr ⟨hn, hm⟩
  · exact .inl ⟨hn, hm⟩

theorem OtherTemperature.ne {m n : Measure} (other : OtherTemperature m n) : m ≠ n := by
  rcases other with ⟨rfl, rfl⟩ | ⟨rfl, rfl⟩ <;> decide

theorem OtherTemperature.back {m n k : Measure} (left : OtherTemperature m n)
    (right : OtherTemperature n k) : k = m := by
  rcases left with ⟨rfl, rfl⟩ | ⟨rfl, rfl⟩
  · rcases right with ⟨h, _⟩ | ⟨_, h⟩
    · contradiction
    · exact h
  · rcases right with ⟨_, h⟩ | ⟨h, _⟩
    · exact h
    · contradiction

variable {u v : MetricUnit}

theorem conversionToPlain (source : u.isValid) (target : v.isValid)
    (plain : ¬ OtherTemperature u.measure v.measure) :
    u.conversionTo v =
      if u.measure = v.measure ∧ u.divisor = v.divisor then .ok (u.scale.conversion v.scale)
      else .error (.incompatible u.short v.short) := by
  unfold conversionTo
  simp only [source, target, Bool.not_true, Bool.false_eq_true, if_false]
  split
  · rename_i hu hv
    exact absurd (.inl ⟨hu, hv⟩) plain
  · rename_i hu hv
    exact absurd (.inr ⟨hu, hv⟩) plain
  · rfl

theorem conversionToSame (source : u.isValid) (target : v.isValid)
    (measure : u.measure = v.measure) (divisor : u.divisor = v.divisor) :
    u.conversionTo v = .ok (u.scale.conversion v.scale) := by
  rw [conversionToPlain source target fun other => other.ne measure, if_pos ⟨measure, divisor⟩]

theorem convertibleIff (source : u.isValid) (target : v.isValid) :
    Convertible u v ↔
      OtherTemperature u.measure v.measure ∨ u.measure = v.measure ∧ u.divisor = v.divisor := by
  by_cases other : OtherTemperature u.measure v.measure
  · refine iff_of_true ?_ (.inl other)
    rcases other with ⟨hu, hv⟩ | ⟨hu, hv⟩
    · exact ⟨.celsiusToFahrenheit, by simp [conversionTo, source, target, hu, hv]⟩
    · exact ⟨.fahrenheitToCelsius, by simp [conversionTo, source, target, hu, hv]⟩
  · simp only [Convertible, conversionToPlain source target other, other, false_or]
    split
    · rename_i same
      exact iff_of_true ⟨_, rfl⟩ same
    · rename_i different
      refine iff_of_false ?_ different
      rintro ⟨c, ok⟩
      contradiction

def Detour (u v w : MetricUnit) : Prop :=
  OtherTemperature u.measure v.measure ∧ w.measure = u.measure ∧ w.divisor ≠ u.divisor

instance (u v w : MetricUnit) : Decidable (Detour u v w) :=
  inferInstanceAs (Decidable (_ ∧ _))

theorem convertibleRefl (valid : u.isValid) : Convertible u u :=
  (convertibleIff valid valid).mpr (.inr ⟨rfl, rfl⟩)

theorem convertibleSymm (source : u.isValid) (target : v.isValid) (there : Convertible u v) :
    Convertible v u := by
  refine (convertibleIff target source).mpr ?_
  rcases (convertibleIff source target).mp there with other | ⟨measure, divisor⟩
  · exact .inl other.symm
  · exact .inr ⟨measure.symm, divisor.symm⟩

theorem convertibleTrans {w : MetricUnit} (hu : u.isValid) (hv : v.isValid) (hw : w.isValid)
    (first : Convertible u v) (second : Convertible v w) : Convertible u w ↔ ¬ Detour u v w := by
  rw [convertibleIff hu hw]
  rcases (convertibleIff hu hv).mp first with there | ⟨measure, divisor⟩
  · rcases (convertibleIff hv hw).mp second with back | ⟨measure, divisor⟩
    · have same := there.back back
      constructor
      · rintro (other | ⟨_, divisor⟩) ⟨_, _, different⟩
        · exact other.ne same.symm
        · exact different divisor.symm
      · intro direct
        refine .inr ⟨same.symm, ?_⟩
        by_contra different
        exact direct ⟨there, same, fun divisor => different divisor.symm⟩
    · refine iff_of_true (.inl (measure ▸ there)) ?_
      rintro ⟨other, same, _⟩
      exact other.ne (same.symm.trans measure.symm)
  · have direct : OtherTemperature u.measure w.measure ∨
        u.measure = w.measure ∧ u.divisor = w.divisor := by
      rw [measure, divisor]
      exact (convertibleIff hv hw).mp second
    refine iff_of_true direct ?_
    rintro ⟨other, _⟩
    exact other.ne measure

theorem literalsConvertible (a b c : String)
    (ha : (parse a).isValid) (hb : (parse b).isValid) (hc : (parse c).isValid) :
    Convertible (parse a) (parse a) ∧
    (Convertible (parse a) (parse b) ↔ Convertible (parse b) (parse a)) ∧
    (Convertible (parse a) (parse b) → Convertible (parse b) (parse c) →
      (Convertible (parse a) (parse c) ↔ ¬ Detour (parse a) (parse b) (parse c))) :=
  ⟨convertibleRefl ha, ⟨convertibleSymm ha hb, convertibleSymm hb ha⟩, convertibleTrans ha hb hc⟩

theorem heatingRateConvertible :
    Convertible (parse "degC/s") (parse "degC/s") ∧
    (Convertible (parse "degC/s") (parse "degF") ↔ Convertible (parse "degF") (parse "degC/s")) ∧
    (Convertible (parse "degC/s") (parse "degF") → Convertible (parse "degF") (parse "KdegC/s") →
      (Convertible (parse "degC/s") (parse "KdegC/s") ↔
        ¬ Detour (parse "degC/s") (parse "degF") (parse "KdegC/s"))) :=
  literalsConvertible "degC/s" "degF" "KdegC/s" (by decide +kernel) (by decide +kernel)
    (by decide +kernel)

theorem heatingRateDetour :
    ((parse "degC/s").isValid ∧ (parse "degF").isValid ∧ (parse "degC").isValid) ∧
    Convertible (parse "degC/s") (parse "degF") ∧ Convertible (parse "degF") (parse "degC") ∧
    ¬ Convertible (parse "degC/s") (parse "degC") := by
  decide +kernel

end MetricUnits.MetricUnit

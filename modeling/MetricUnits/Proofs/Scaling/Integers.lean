import MetricUnits.Schema
import MetricUnits.Proofs.Scaling.Whole

/-! Integer samples by their type and number, how they are made of numbers, and what conversions make of
them. -/
namespace MetricUnits

def Representation.whole? : (r : Representation) → r.Value → Option Int
  | integer _, (n : IntegerType.Value _) => some n.val
  | float64, _ | float32, _ => none

def Sample.whole? (s : Sample) : Option Int := s.type.representation.whole? s.value

structure Sample.Holds (s : Sample) (t : IntegerType) (n : Int) : Prop where
  type : s.type.representation = .integer t
  number : s.whole? = some n

namespace Representation
variable {r : Representation} {t : IntegerType} {n : Int}

theorem wholeApplied (c : Conversion) (integer : r = .integer t) {x : r.Value} (number : r.whole? x = some n) :
    ∃ v : t.Value, v.val = n ∧ r.whole? (c.apply r x) = some (c.applyInteger v).val := by
  subst integer
  exact ⟨x, Option.some.inj number, rfl⟩

theorem wholeThrough (g : Double → Double) (integer : r = .integer t) {x : r.Value}
    (number : r.whole? x = some n) :
    r.whole? (r.through g x) = some ((g (.ofInt .double n)).truncate t.least t.greatest) := by
  subst integer
  obtain rfl := Option.some.inj number
  rfl

theorem wholeSame (integer : r = .integer t) {x y : r.Value} (left : r.whole? x = some n)
    (right : r.whole? y = some n) : x = y := by
  subst integer
  exact IntegerType.valueEqIff.mpr ((Option.some.inj left).trans (Option.some.inj right).symm)

theorem wholeHeld (integer : r = .integer t) {x : r.Value} (number : r.whole? x = some n) : t.Holds n := by
  subst integer
  obtain ⟨m, held⟩ := x
  obtain rfl := Option.some.inj number
  exact held

theorem wholeExists (integer : r = .integer t) (x : r.Value) : ∃ n, r.whole? x = some n := by
  subst integer
  exact ⟨x.val, rfl⟩

theorem toNumberWhole (integer : r = .integer t) {x : r.Value} (number : r.whole? x = some n) :
    r.toNumber x = .integer n := by
  subst integer
  obtain rfl := Option.some.inj number
  rfl

theorem ofNumberHeld (expected : String) (integer : r = .integer t) (held : t.Holds n) :
    ∃ x, r.ofNumber expected (.integer n) = .ok x ∧ r.whole? x = some n := by
  subst integer
  exact ⟨⟨n, held⟩, dif_pos held, rfl⟩

theorem ofNumberBeyond (expected : String) (integer : r = .integer t) (beyond : ¬ t.Holds n) :
    r.ofNumber expected (.integer n) = .error (.wrongInteger n expected) := by
  subst integer
  exact dif_neg beyond

theorem ofNumberIff (expected : String) (integer : r = .integer t) {x : r.Value} :
    r.ofNumber expected (.integer n) = .ok x ↔ r.whole? x = some n := by
  by_cases held : t.Holds n
  · obtain ⟨y, made, number⟩ := ofNumberHeld expected integer held
    rw [made]
    constructor
    · rintro ⟨⟩
      exact number
    · intro same
      exact congrArg Except.ok (wholeSame integer number same)
  · rw [ofNumberBeyond expected integer held]
    exact iff_of_false nofun fun number => held (wholeHeld integer number)

end Representation

namespace Sample
variable {s s' : Sample} {t : IntegerType} {n : Int}

theorem Holds.held (holds : s.Holds t n) : t.Holds n := Representation.wholeHeld holds.type holds.number

theorem Holds.same (holds : s.Holds t n) (other : s'.Holds t n) (type : s.type = s'.type) : s = s' := by
  obtain ⟨_, x⟩ := s
  obtain ⟨_, y⟩ := s'
  subst type
  exact congrArg _ (Representation.wholeSame holds.type holds.number other.number)

theorem Holds.mapped (holds : s.Holds t n) (g : Double → Double) :
    (s.map g).Holds t ((g (.ofInt .double n)).truncate t.least t.greatest) :=
  ⟨holds.type, Representation.wholeThrough g holds.type holds.number⟩

theorem Holds.applied (holds : s.Holds t n) (c : Conversion) :
    ∃ v : t.Value, v.val = n ∧ (c.applySample s).type = s.type ∧
      (c.applySample s).Holds t (c.applyInteger v).val := by
  obtain ⟨integer, number⟩ := holds
  obtain ⟨v, same, applied⟩ := Representation.wholeApplied c integer number
  refine ⟨v, same, ?_, ?_, ?_⟩
  · rw [Conversion.applySampleMk]
  · rw [Conversion.applySampleMk]
    exact integer
  · rw [Conversion.applySampleMk]
    exact applied

theorem ofNumberMade {t : SampleType} {n : Json.Number} (made : ofNumber t n = .ok s) :
    ∃ x, t.representation.ofNumber t.tag n = .ok x ∧ s = ⟨t, x⟩ := by
  unfold ofNumber at made
  cases read : t.representation.ofNumber t.tag n with
  | error e => simp [read, Except.map] at made
  | ok x =>
    rw [read] at made
    cases made
    exact ⟨x, rfl, rfl⟩

theorem ofNumberIff {type : SampleType} (integer : type.representation = .integer t) :
    ofNumber type (.integer n) = .ok s ↔ s.type = type ∧ s.whole? = some n := by
  constructor
  · intro made
    obtain ⟨x, read, rfl⟩ := ofNumberMade made
    exact ⟨rfl, (Representation.ofNumberIff type.tag integer).mp read⟩
  · rintro ⟨rfl, number⟩
    rw [ofNumber, (Representation.ofNumberIff s.type.tag integer).mpr number]
    rfl

end Sample
end MetricUnits

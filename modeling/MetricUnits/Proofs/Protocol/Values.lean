import MetricUnits.Proofs.Protocol.Outcomes
import MetricUnits.Proofs.Protocol.Requests
import MetricUnits.Proofs.Scaling.Overflow

/-! The values that requests to convert are answered with. A whole number is answered with a whole number,
at the bound of its type if the result is beyond, and any other number with a double. There is no such
bound for doubles: where the result is beyond their range, the answer has null for a value. -/
namespace MetricUnits
open Json

namespace Params

inductive Taken : Sample → Prop
  | int64 (n : IntegerType.int64.Value) : Taken (.int64 n)
  | uint64 (n : IntegerType.uint64.Value) : Taken (.uint64 n)
  | double {x : Double} : x.isFinite → Taken (.ofDouble x)

theorem sampleTaken {depth : Nat} {given : Json} (within : Within Number.Readable depth given) :
    Decodes Taken (sample given) := by
  cases within with
  | @number _ n readable =>
    cases n with
    | integer n =>
      simp only [sample]
      split
      · exact Taken.int64 _
      · split
        · exact Taken.uint64 _
        · trivial
    | double x => exact Taken.double readable
    | single x => exact readable.elim
  | _ => trivial

theorem givenWithin {depth : Nat} {params given : Json} (within : Within Number.Readable depth params)
    (has : Given params given) : ∃ d, Within Number.Readable d given := by
  cases has with
  | item =>
    cases within with
    | array items => exact ⟨_, items given List.mem_cons_self⟩
  | @field fields _ found =>
    cases within with
    | object _ values =>
      obtain ⟨before, after, split, _⟩ := List.lookup_eq_some_iff.mp found
      exact ⟨_, values ("value", given) (by simp [split])⟩

theorem valueTaken {depth : Nat} {params : Json} (within : Within Number.Readable depth params) :
    ∀ given, Given params given → Decodes Taken (sample given) := by
  intro given has
  obtain ⟨_, within⟩ := givenWithin within has
  exact sampleTaken within

end Params

namespace Answer

inductive ValueOf (c : Conversion) : Sample → Json → Prop
  | int64 (n : IntegerType.int64.Value) :
      ValueOf c (.int64 n) (.number (.integer (c.applyInteger n).val))
  | uint64 (n : IntegerType.uint64.Value) :
      ValueOf c (.uint64 n) (.number (.integer (c.applyInteger n).val))
  | double {x y : Double} : c.apply .float64 x = y → y.isFinite →
      ValueOf c (.ofDouble x) (.number (.double y))
  | overflow {x : Double} {s : Bool} : Conversion.moderate < x.magnitude →
      c.apply .float64 x = (.infinite s : Double) → ValueOf c (.ofDouble x) .null

theorem valueDouble (c : Conversion) (x : Double) :
    value (c.applySample (.ofDouble x)) = .ofDouble (c.apply .float64 x) :=
  congrArg value (Conversion.applySampleMk c .float64 x)

theorem valueUnsigned (c : Conversion) (n : IntegerType.uint64.Value) :
    value (c.applySample (.uint64 n)) = .number (.integer (c.applyInteger n).val) :=
  congrArg value (Conversion.applySampleMk c .uint64 n)

theorem valueInfinite {c : Conversion} {x : Double} {s : Bool}
    (infinite : c.apply .float64 x = (.infinite s : Double)) :
    value (c.applySample (.ofDouble x)) = .null := by
  rw [valueDouble, infinite]
  rfl

theorem valueFinite {c : Conversion} {x : Double} (finite : (c.apply .float64 x : Double).isFinite) :
    value (c.applySample (.ofDouble x)) = .number (.double (c.apply .float64 x)) := by
  rw [valueDouble]
  exact if_pos finite

theorem valueAnswered {c : Conversion} (bounded : c.Bounded) {s : Sample} (taken : Params.Taken s) :
    ValueOf c s (value (c.applySample s)) := by
  cases taken with
  | int64 n =>
    rw [valueInteger]
    exact .int64 n
  | uint64 n =>
    rw [valueUnsigned]
    exact .uint64 n
  | @double x finite =>
    rcases Conversion.applyOutcome bounded finite with finite | ⟨large, s, infinite⟩
    · rw [valueFinite finite]
      exact .double rfl finite
    · rw [valueInfinite infinite]
      exact .overflow large infinite

inductive Asks (r : Request) : Sample → Conversion → Prop
  | convert {p c} : r.method = Method.convert.name → ConvertSource r.params p c → Asks r p.value c
  | rescale {p} : r.method = Method.convertPrefix.name → RescaleSource r.params p →
      Asks r p.value ((MetricUnit.parse p.literal).scale.conversion (Prefix.lookup p.token))

theorem Asks.bounded {r : Request} {s : Sample} {c : Conversion} (asks : Asks r s c) : c.Bounded := by
  cases asks with
  | convert _ source => exact MetricUnit.conversionToBounded source.conversion
  | rescale _ _ => exact Prefix.conversionBounded _ _

theorem Asks.taken {r : Request} {s : Sample} {c : Conversion} (asks : Asks r s c) {depth : Nat}
    (inside : r.Inside depth) : Params.Taken s := by
  have each := Params.valueTaken inside.params
  cases asks with
  | convert _ source =>
    have decodes := ConvertParams.decodes r.params each
    rw [source.decoded] at decodes
    exact decodes
  | rescale _ source =>
    have decodes := RescaleParams.decodes r.params each
    rw [source.decoded] at decodes
    exact decodes

theorem answeredAsks {r : Request} (converts : r.method = "convert" ∨ r.method = "convert_prefix")
    {result : Json} (answered : (Response.ofRequest r).outcome = .ok result) :
    ∃ s c, Asks r s c ∧ result.field? "value" = some (value (c.applySample s)) := by
  rcases converts with named | named
  · obtain ⟨p, c, source, rfl⟩ := (Response.convertClassified named).2 result |>.mp answered
    exact ⟨_, _, .convert named source, rfl⟩
  · obtain ⟨p, source, rfl⟩ := (Response.rescaleClassified named).2 result |>.mp answered
    exact ⟨_, _, .rescale named source, rfl⟩

end Answer

namespace Response
open Answer

theorem conversionValues {line : String} {r : Request} (accepted : Request.ofLine line = .ok r)
    (converts : r.method = "convert" ∨ r.method = "convert_prefix") {result : Json}
    (answered : (ofLine line).outcome = .ok result) :
    ∃ s c v, Asks r s c ∧ result.field? "value" = some v ∧ ValueOf c s v := by
  rw [ofLineAccepted accepted] at answered
  obtain ⟨s, c, asks, field⟩ := answeredAsks converts answered
  exact ⟨s, c, _, asks, field, valueAnswered asks.bounded (asks.taken (Request.ofLineInside accepted))⟩

def large : Double := Decimal.toBinary .double false ⟨1, 308⟩

theorem largeBytesLost :
    let r := convertRequest (.number (.double large)) "KB" "B"
    Request.ofLine r.line = .ok r ∧ (ofLine r.line).outcome = .ok (.object [("value", .null)]) ∧
    ∃ s c, Asks r s c ∧ ValueOf c s .null := by
  intro r
  have params : Within Number.Readable (nestingLimit - 1) r.params := by
    refine .object (List.pairwise_map.mp (by decide : ["from", "to", "value"].Pairwise (· < ·))) ?_
    have readable : Number.Readable (.double large) := by
      show large.isFinite = true
      decide +kernel
    simp [Within.number readable]
  have accepted : Request.ofLine r.line = .ok r := Request.lineReads .null params
  have infinite : (Prefix.kilo.conversion .base).apply .float64 large = (.infinite false : Double) := by
    decide +kernel
  have converts : (MetricUnit.parse "KB").conversionTo (MetricUnit.parse "B") =
      .ok (Prefix.kilo.conversion .base) := rfl
  have answered : (ofLine r.line).outcome = .ok (.object [("value", .null)]) := by
    rw [ofLineAccepted accepted]
    refine outcomeAnswered.mpr ?_
    rw [convertAnswered (asksConvert _ _ _) rfl (by decide +kernel) (by decide +kernel) converts,
      valueInfinite infinite]
  obtain ⟨s, c, v, asks, field, value⟩ := conversionValues accepted (.inl rfl) answered
  obtain rfl : Json.null = v := Option.some.inj field
  exact ⟨accepted, answered, s, c, asks, value⟩

end Response
end MetricUnits

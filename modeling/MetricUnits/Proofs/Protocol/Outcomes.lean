import MetricUnits.Proofs.Protocol.Answers
import MetricUnits.Proofs.Protocol.Rescaling

/-! How requests to convert turn out. Parameters, units, prefix and measures are looked at one after the
other, and the first that is wrong decides about the error. Behind these checks nothing fails any more:
neither does a conversion between valid units report an invalid one, nor does rescaling lose a unit. -/
namespace MetricUnits
open Json MetricUnit

namespace Response

def Fails (answer : Response) (code message : String) : Prop :=
  ∃ report, answer.outcome = .error report ∧ report.code = code ∧ report.message = message

theorem outcomeFailed {r : Request} {report : ErrorReport} :
    (ofRequest r).outcome = .error report ↔ ∃ e, Answer.ofRequest r = .error e ∧ e.report = report := by
  cases answered : Answer.ofRequest r <;> simp [ofRequest, answered, Except.mapError]

theorem outcomeAnswered {r : Request} {result : Json} :
    (ofRequest r).outcome = .ok result ↔ Answer.ofRequest r = .ok result := by
  cases answered : Answer.ofRequest r <;> simp [ofRequest, answered, Except.mapError]

end Response

theorem MetricUnit.conversionToFails {u v : MetricUnit} (source : u.isValid) (target : v.isValid)
    {e : UnitError} (refused : u.conversionTo v = .error e) : e = .incompatible u.short v.short := by
  unfold conversionTo at refused
  simp only [source, target, Bool.not_true, Bool.false_eq_true, if_false] at refused
  split at refused
  · contradiction
  · contradiction
  · split at refused
    · contradiction
    · exact (Except.error.inj refused).symm

theorem MetricUnit.rescaleParsed {s : String} (valid : (parse s).isValid) {p : Prefix} (known : p.isValid) :
    (parse s).rescale p = ((parse s).scale.conversion p, (parse s).withScale p) ∧
      ((parse s).withScale p).isValid := by
  have proper := (parseCanonicalOfValid valid).toProper
  exact ⟨rescaleProper proper known, (proper.withScale known).valid⟩

namespace Answer

theorem validUnitValid {literal : String} (valid : (MetricUnit.parse literal).isValid) :
    validUnit literal = .ok (MetricUnit.parse literal) := by
  rw [validUnit, if_pos valid]

theorem validUnitInvalid {literal : String} (invalid : ¬ (MetricUnit.parse literal).isValid) :
    validUnit literal = .error (.invalidUnit literal) := by
  rw [validUnit, if_neg invalid]

inductive ConvertFails (params : Json) : (code message : String) → Prop
  | request {e} : ConvertParams.ofJson params = .error e →
      ConvertFails params "INVALID_REQUEST" ("Invalid request: " ++ e.message)
  | source {p} : ConvertParams.ofJson params = .ok p → ¬ (MetricUnit.parse p.source).isValid →
      ConvertFails params "INVALID_UNIT" ("Invalid unit: " ++ p.source)
  | target {p} : ConvertParams.ofJson params = .ok p → (MetricUnit.parse p.source).isValid →
      ¬ (MetricUnit.parse p.target).isValid →
      ConvertFails params "INVALID_UNIT" ("Invalid unit: " ++ p.target)
  | measures {p u v} : ConvertParams.ofJson params = .ok p → (MetricUnit.parse p.source).isValid →
      (MetricUnit.parse p.target).isValid →
      (MetricUnit.parse p.source).conversionTo (MetricUnit.parse p.target) =
        .error (.incompatible u v) →
      ConvertFails params "INCOMPATIBLE_MEASURES"
        ("Incompatible measures: cannot convert " ++ u ++ " to " ++ v)

structure ConvertSource (params : Json) (p : ConvertParams) (c : Conversion) : Prop where
  decoded : ConvertParams.ofJson params = .ok p
  source : (MetricUnit.parse p.source).isValid
  target : (MetricUnit.parse p.target).isValid
  conversion : (MetricUnit.parse p.source).conversionTo (MetricUnit.parse p.target) = .ok c

def convertResult (p : ConvertParams) (c : Conversion) : Json :=
  .object [("value", value (c.applySample p.value))]

theorem convertUndecoded {params : Json} {e : Fault} (refused : ConvertParams.ofJson params = .error e) :
    ofMethod .convert params = .error (.invalidRequest e.message) := by
  rw [ofMethod, refused]
  rfl

theorem convertDecoded {params : Json} {p : ConvertParams} (decoded : ConvertParams.ofJson params = .ok p) :
    ofMethod .convert params = convert p := by
  rw [ofMethod, decoded]
  rfl

section Convert
variable {p : ConvertParams}

theorem convertBadSource (invalid : ¬ (MetricUnit.parse p.source).isValid) :
    convert p = .error (.invalidUnit p.source) := by
  rw [convert, validUnitInvalid invalid]
  rfl

theorem convertBadTarget (source : (MetricUnit.parse p.source).isValid)
    (invalid : ¬ (MetricUnit.parse p.target).isValid) : convert p = .error (.invalidUnit p.target) := by
  rw [convert, validUnitValid source, validUnitInvalid invalid]
  rfl

theorem convertUnits (source : (MetricUnit.parse p.source).isValid)
    (target : (MetricUnit.parse p.target).isValid) :
    convert p = ((MetricUnit.parse p.source).conversionTo (MetricUnit.parse p.target)).map
      (convertResult p) := by
  simp only [convert, validUnitValid source, validUnitValid target, bind, Except.bind]
  cases (MetricUnit.parse p.source).conversionTo (MetricUnit.parse p.target) <;> rfl

end Convert

theorem convertDone {params : Json} {p : ConvertParams} {c : Conversion} (done : ConvertSource params p c) :
    ofMethod .convert params = .ok (convertResult p c) := by
  rw [convertDecoded done.decoded, convertUnits done.source done.target, done.conversion]
  rfl

theorem convertOutcome (params : Json) :
    Yields (fun e => ConvertFails params e.code e.message)
      (fun result => ∃ p c, ConvertSource params p c ∧ result = convertResult p c)
      (ofMethod .convert params) := by
  cases decoded : ConvertParams.ofJson params with
  | error e =>
    rw [convertUndecoded decoded]
    exact .request decoded
  | ok p =>
    by_cases source : (MetricUnit.parse p.source).isValid
    case neg =>
      rw [convertDecoded decoded, convertBadSource source]
      exact .source decoded source
    by_cases target : (MetricUnit.parse p.target).isValid
    case neg =>
      rw [convertDecoded decoded, convertBadTarget source target]
      exact .target decoded source target
    cases conversion : (MetricUnit.parse p.source).conversionTo (MetricUnit.parse p.target) with
    | error e =>
      rw [convertDecoded decoded, convertUnits source target, conversion]
      obtain rfl := conversionToFails source target conversion
      exact .measures decoded source target conversion
    | ok c =>
      have done : ConvertSource params p c := ⟨decoded, source, target, conversion⟩
      rw [convertDone done]
      exact ⟨p, c, done, rfl⟩

theorem convertFailure {params : Json} {code message : String} (fails : ConvertFails params code message) :
    ∃ e, ofMethod .convert params = .error e ∧ e.code = code ∧ e.message = message := by
  cases fails with
  | request refused => exact ⟨_, convertUndecoded refused, rfl, rfl⟩
  | source decoded invalid =>
    exact ⟨_, (convertDecoded decoded).trans (convertBadSource invalid), rfl, rfl⟩
  | target decoded source invalid =>
    exact ⟨_, (convertDecoded decoded).trans (convertBadTarget source invalid), rfl, rfl⟩
  | measures decoded source target refused =>
    refine ⟨.incompatible _ _, ?_, rfl, rfl⟩
    rw [convertDecoded decoded, convertUnits source target, refused]
    rfl

inductive RescaleFails (params : Json) : (code message : String) → Prop
  | request {e} : RescaleParams.ofJson params = .error e →
      RescaleFails params "INVALID_REQUEST" ("Invalid request: " ++ e.message)
  | unit {p} : RescaleParams.ofJson params = .ok p → ¬ (MetricUnit.parse p.literal).isValid →
      RescaleFails params "INVALID_UNIT" ("Invalid unit: " ++ p.literal)
  | token {p} : RescaleParams.ofJson params = .ok p → (MetricUnit.parse p.literal).isValid →
      ¬ (Prefix.lookup p.token).isValid →
      RescaleFails params "INVALID_PREFIX" ("Invalid prefix: " ++ p.token)

structure RescaleSource (params : Json) (p : RescaleParams) : Prop where
  decoded : RescaleParams.ofJson params = .ok p
  unit : (MetricUnit.parse p.literal).isValid
  token : (Prefix.lookup p.token).isValid

theorem rescaleUndecoded {params : Json} {e : Fault} (refused : RescaleParams.ofJson params = .error e) :
    ofMethod .convertPrefix params = .error (.invalidRequest e.message) := by
  rw [ofMethod, refused]
  rfl

theorem rescaleDecoded {params : Json} {p : RescaleParams} (decoded : RescaleParams.ofJson params = .ok p) :
    ofMethod .convertPrefix params = convertPrefix p := by
  rw [ofMethod, decoded]
  rfl

section Rescale
variable {p : RescaleParams}

theorem rescaleBadUnit (invalid : ¬ (MetricUnit.parse p.literal).isValid) :
    convertPrefix p = .error (.invalidUnit p.literal) := by
  rw [convertPrefix, validUnitInvalid invalid]
  rfl

theorem rescaleBadToken (valid : (MetricUnit.parse p.literal).isValid)
    (unknown : ¬ (Prefix.lookup p.token).isValid) : convertPrefix p = .error (.invalidPrefix p.token) := by
  have off : (!(Prefix.lookup p.token).isValid) = true := by simp [unknown]
  rw [convertPrefix, validUnitValid valid]
  exact if_pos off

end Rescale

theorem rescaleDone {params : Json} {p : RescaleParams} (done : RescaleSource params p) :
    ofMethod .convertPrefix params =
      .ok (rescaled (MetricUnit.parse p.literal) (Prefix.lookup p.token) p.value) := by
  obtain ⟨rescale, valid⟩ := rescaleParsed done.unit done.token
  rw [rescaleDecoded done.decoded, convertPrefix, validUnitValid done.unit]
  simp only [bind, Except.bind, done.token, rescale, valid, Bool.not_true, Bool.false_eq_true, if_false]
  rfl

theorem rescaleOutcome (params : Json) :
    Yields (fun e => RescaleFails params e.code e.message)
      (fun result => ∃ p, RescaleSource params p ∧
        result = rescaled (MetricUnit.parse p.literal) (Prefix.lookup p.token) p.value)
      (ofMethod .convertPrefix params) := by
  cases decoded : RescaleParams.ofJson params with
  | error e =>
    rw [rescaleUndecoded decoded]
    exact .request decoded
  | ok p =>
    by_cases unit : (MetricUnit.parse p.literal).isValid
    case neg =>
      rw [rescaleDecoded decoded, rescaleBadUnit unit]
      exact .unit decoded unit
    by_cases token : (Prefix.lookup p.token).isValid
    case neg =>
      rw [rescaleDecoded decoded, rescaleBadToken unit token]
      exact .token decoded unit token
    have done : RescaleSource params p := ⟨decoded, unit, token⟩
    rw [rescaleDone done]
    exact ⟨p, done, rfl⟩

theorem rescaleFailure {params : Json} {code message : String} (fails : RescaleFails params code message) :
    ∃ e, ofMethod .convertPrefix params = .error e ∧ e.code = code ∧ e.message = message := by
  cases fails with
  | request refused => exact ⟨_, rescaleUndecoded refused, rfl, rfl⟩
  | unit decoded invalid =>
    exact ⟨_, (rescaleDecoded decoded).trans (rescaleBadUnit invalid), rfl, rfl⟩
  | token decoded valid unknown =>
    exact ⟨_, (rescaleDecoded decoded).trans (rescaleBadToken valid unknown), rfl, rfl⟩

end Answer

namespace Response
open Answer

theorem classified {r : Request} {m : Method} (named : r.method = m.name)
    {fails : (code message : String) → Prop} {good : Json → Prop}
    (sound : Yields (fun e => fails e.code e.message) good (ofMethod m r.params))
    (failure : ∀ code message, fails code message →
      ∃ e, ofMethod m r.params = .error e ∧ e.code = code ∧ e.message = message)
    (success : ∀ result, good result → ofMethod m r.params = .ok result) :
    (∀ code message, (ofRequest r).Fails code message ↔ fails code message) ∧
      ∀ result, (ofRequest r).outcome = .ok result ↔ good result := by
  rw [← ofRequestMethod named] at sound failure success
  refine ⟨fun code message => ⟨?_, fun fails => ?_⟩, fun result => ?_⟩
  · rintro ⟨report, failed, rfl, rfl⟩
    obtain ⟨e, cause, rfl⟩ := outcomeFailed.mp failed
    rw [cause] at sound
    exact sound
  · obtain ⟨e, cause, same⟩ := failure code message fails
    exact ⟨e.report, outcomeFailed.mpr ⟨e, cause, rfl⟩, same⟩
  · rw [outcomeAnswered]
    refine ⟨fun answered => ?_, success result⟩
    rw [answered] at sound
    exact sound

theorem convertClassified {r : Request} (named : r.method = "convert") :
    (∀ code message, (ofRequest r).Fails code message ↔ ConvertFails r.params code message) ∧
      ∀ result, (ofRequest r).outcome = .ok result ↔
        ∃ p c, ConvertSource r.params p c ∧ result = convertResult p c := by
  refine classified (m := .convert) named (convertOutcome r.params) (fun _ _ => convertFailure) ?_
  rintro result ⟨p, c, done, rfl⟩
  exact convertDone done

theorem rescaleClassified {r : Request} (named : r.method = "convert_prefix") :
    (∀ code message, (ofRequest r).Fails code message ↔ RescaleFails r.params code message) ∧
      ∀ result, (ofRequest r).outcome = .ok result ↔
        ∃ p, RescaleSource r.params p ∧
          result = rescaled (MetricUnit.parse p.literal) (Prefix.lookup p.token) p.value := by
  refine classified (m := .convertPrefix) named (rescaleOutcome r.params) (fun _ _ => rescaleFailure) ?_
  rintro result ⟨p, done, rfl⟩
  exact rescaleDone done

theorem conversionsClassified (r : Request) :
    (r.method = "convert" →
      (∀ code message, (ofRequest r).Fails code message ↔ ConvertFails r.params code message) ∧
      ∀ result, (ofRequest r).outcome = .ok result ↔
        ∃ p c, ConvertSource r.params p c ∧ result = convertResult p c) ∧
    (r.method = "convert_prefix" →
      (∀ code message, (ofRequest r).Fails code message ↔ RescaleFails r.params code message) ∧
      ∀ result, (ofRequest r).outcome = .ok result ↔
        ∃ p, RescaleSource r.params p ∧
          result = rescaled (MetricUnit.parse p.literal) (Prefix.lookup p.token) p.value) ∧
    (∀ a b, (MetricUnit.parse a).isValid → (MetricUnit.parse b).isValid → ∀ text,
      (MetricUnit.parse a).conversionTo (MetricUnit.parse b) ≠ .error (.invalidUnit text)) ∧
    ∀ a, (MetricUnit.parse a).isValid → ∀ p : Prefix, p.isValid →
      ((MetricUnit.parse a).rescale p).2.isValid := by
  refine ⟨convertClassified, rescaleClassified, fun a b source target text refused => ?_,
    fun a valid p known => ?_⟩
  · cases conversionToFails source target refused
  · obtain ⟨rescale, kept⟩ := rescaleParsed valid known
    rw [rescale]
    exact kept

theorem unknownNamesClassified :
    (ofRequest (convertRequest (.number (.integer 1)) "foobar" "E")).Fails "INVALID_UNIT"
      "Invalid unit: foobar" ∧
    (ofRequest (rescaleRequest (.number (.integer 1)) "GHz" "X")).Fails "INVALID_PREFIX"
      "Invalid prefix: X" ∧
    ((MetricUnit.parse "GHz").rescale .kilo).2.isValid := by
  have units := (conversionsClassified (convertRequest (.number (.integer 1)) "foobar" "E")).1 rfl
  have prefixes := (conversionsClassified (rescaleRequest (.number (.integer 1)) "GHz" "X")).2.1 rfl
  have valid : (MetricUnit.parse "GHz").isValid := by decide +kernel
  refine ⟨(units.1 _ _).mpr ?_, (prefixes.1 _ _).mpr ?_, ?_⟩
  · exact .source (p := ⟨.int64 ⟨1, by decide⟩, "foobar", "E"⟩) rfl (by decide +kernel)
  · exact .token (p := ⟨.int64 ⟨1, by decide⟩, "GHz", "X"⟩) rfl valid (by decide +kernel)
  · exact (conversionsClassified (rescaleRequest .null "GHz" "K")).2.2.2 "GHz" valid .kilo rfl

end Response
end MetricUnits

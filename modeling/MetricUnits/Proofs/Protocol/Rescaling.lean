import MetricUnits.Protocol.Answer
import MetricUnits.Proofs.Rescaling

/-! Requests that rescale a value, followed by requests that convert the same value to the unit that
was reported. Both are answered, and with one result unless the reported prefix is read as another
one. -/
namespace MetricUnits.Answer
open Json MetricUnit Literal

structure AsksRescale (r : Request) (given : Json) (literal token : String) : Prop where
  method : r.method = Method.convertPrefix.name
  token : r.params.field? "prefix" = some (.string token)
  literal : r.params.field? "unit" = some (.string literal)
  value : r.params.field? "value" = some given

structure AsksConvert (r : Request) (given : Json) (source target : String) : Prop where
  method : r.method = Method.convert.name
  source : r.params.field? "from" = some (.string source)
  target : r.params.field? "to" = some (.string target)
  value : r.params.field? "value" = some given

theorem objectOfField {params value : Json} {key : String} (found : params.field? key = some value) :
    ∃ fields, params = .object fields := by
  cases params <;> first | exact ⟨_, rfl⟩ | contradiction

theorem AsksRescale.params {r given literal token} (asks : AsksRescale r given literal token) :
    RescaleParams.ofJson r.params =
      (Params.sample given).map fun x => ⟨x, literal, token⟩ := by
  obtain ⟨_, prefixField, unitField, valueField⟩ := asks
  obtain ⟨fields, object⟩ := objectOfField prefixField
  rw [object] at prefixField unitField valueField ⊢
  simp only [RescaleParams.ofJson, RescaleParams.ofFields, Params.field?, prefixField, unitField,
    valueField]
  cases Params.sample given <;> rfl

theorem AsksConvert.params {r given source target} (asks : AsksConvert r given source target) :
    ConvertParams.ofJson r.params =
      (Params.sample given).map fun x => ⟨x, source, target⟩ := by
  obtain ⟨_, fromField, toField, valueField⟩ := asks
  obtain ⟨fields, object⟩ := objectOfField fromField
  rw [object] at fromField toField valueField ⊢
  simp only [ConvertParams.ofJson, ConvertParams.ofFields, Params.field?, fromField, toField,
    valueField]
  cases Params.sample given <;> rfl

theorem ofRequestMethod {r : Request} {m : Method} (named : r.method = m.name) :
    ofRequest r = ofMethod m r.params := by
  unfold ofRequest
  rw [named]
  cases m <;> rfl

def rescaled (u : MetricUnit) (p : Prefix) (x : Sample) : Json :=
  .object [("unit", .string (u.withScale p).short),
    ("value", value ((u.scale.conversion p).applySample x))]

theorem rescaledFields {u : MetricUnit} {p : Prefix} {x : Sample} {w : String} {v : Json}
    (result : .object [("unit", .string w), ("value", v)] = rescaled u p x) :
    w = (u.withScale p).short ∧ v = value ((u.scale.conversion p).applySample x) := by
  simpa [rescaled] using result

theorem rescaleAnswered {r given x literal token} (asks : AsksRescale r given literal token)
    (sampled : Params.sample given = .ok x)
    (valid : (MetricUnit.parse literal).isValid) (known : (Prefix.lookup token).isValid) :
    ofRequest r = .ok (rescaled (MetricUnit.parse literal) (Prefix.lookup token) x) := by
  have proper := (parseCanonicalOfValid valid).toProper
  have target := (proper.withScale known).valid
  rw [ofRequestMethod asks.method, ofMethod, asks.params, sampled]
  simp only [Except.map, decoded, Except.mapError, convertPrefix, validUnit, valid, known, if_true, bind,
    Except.bind, rescaleProper proper known, target, Bool.not_true, Bool.false_eq_true, if_false]
  rfl

theorem rescaleSource {r given literal token result} (asks : AsksRescale r given literal token)
    (ok : ofRequest r = .ok result) :
    ∃ x, Params.sample given = .ok x ∧ (MetricUnit.parse literal).isValid ∧
      (Prefix.lookup token).isValid ∧
      result = rescaled (MetricUnit.parse literal) (Prefix.lookup token) x := by
  have answer := ok
  rw [ofRequestMethod asks.method, ofMethod, asks.params] at ok
  cases sampled : Params.sample given with
  | error e =>
    rw [sampled] at ok
    contradiction
  | ok x =>
    rw [sampled] at ok
    simp only [Except.map, decoded, Except.mapError, convertPrefix, validUnit, bind, Except.bind] at ok
    by_cases valid : (MetricUnit.parse literal).isValid
    · by_cases known : (Prefix.lookup token).isValid
      · rw [rescaleAnswered asks sampled valid known] at answer
        cases answer
        exact ⟨x, rfl, valid, known, rfl⟩
      · simp [valid, known] at ok
    · simp [valid] at ok

theorem convertAnswered {r given x source target c} (asks : AsksConvert r given source target)
    (sampled : Params.sample given = .ok x)
    (valid : (MetricUnit.parse source).isValid) (known : (MetricUnit.parse target).isValid)
    (conversion : (MetricUnit.parse source).conversionTo (MetricUnit.parse target) = .ok c) :
    ofRequest r = .ok (.object [("value", value (c.applySample x))]) := by
  rw [ofRequestMethod asks.method, ofMethod, asks.params, sampled]
  simp only [Except.map, decoded, Except.mapError, convert, validUnit, valid, known, if_true, conversion,
    bind, Except.bind]
  rfl

theorem convertRescaled {r given x literal token} (asks : AsksConvert r given literal
      ((MetricUnit.parse literal).withScale (Prefix.lookup token)).short)
    (sampled : Params.sample given = .ok x)
    (valid : (MetricUnit.parse literal).isValid) (known : (Prefix.lookup token).isValid) :
    ofRequest r = .ok (.object [("value", value (((MetricUnit.parse literal).scale.conversion
      (meantPrefix (Prefix.lookup token) (MetricUnit.parse literal).measure)).applySample x))]) := by
  have proper := (parseCanonicalOfValid valid).toProper
  have target := proper.withScale known
  have read : (MetricUnit.parse ((MetricUnit.parse literal).withScale
      (Prefix.lookup token)).short).isValid := by
    rw [parseShortProper target]
    exact (target.withScale (meantPrefixValid target.scale _)).valid
  exact convertAnswered asks sampled valid read (conversionToReread proper known)

theorem valueInteger (c : Conversion) (n : IntegerType.int64.Value) :
    value (c.applySample (.int64 n)) = .number (.integer (c.applyInteger n).val) := by
  rw [show c.applySample (.int64 n) = .int64 (c.applyInteger n) from Conversion.applySampleMk c .int64 n]
  rfl

def ReadsBack (literal token : String) (given : Json) : Prop :=
  ∀ w v r r', AsksRescale r given literal token →
    ofRequest r = .ok (.object [("unit", .string w), ("value", v)]) →
    AsksConvert r' given literal w → ofRequest r' = .ok (.object [("value", v)])

theorem readsBackPlain {literal token : String}
    (plain : ¬ Reread (Prefix.lookup token) (MetricUnit.parse literal).measure) (given : Json) :
    ReadsBack literal token given := by
  intro w v r r' asks answer again
  obtain ⟨x, sampled, valid, known, result⟩ := rescaleSource asks answer
  obtain ⟨rfl, rfl⟩ := rescaledFields result
  rw [convertRescaled again sampled valid known, (meantPrefixIff _ _).mpr plain]

def rescaleRequest (given : Json) (literal token : String) : Request :=
  ⟨.null, Method.convertPrefix.name,
    .object [("prefix", .string token), ("unit", .string literal), ("value", given)]⟩

def convertRequest (given : Json) (source target : String) : Request :=
  ⟨.null, Method.convert.name,
    .object [("from", .string source), ("to", .string target), ("value", given)]⟩

theorem asksRescale (given : Json) (literal token : String) :
    AsksRescale (rescaleRequest given literal token) given literal token :=
  ⟨rfl, rfl, rfl, rfl⟩

theorem asksConvert (given : Json) (source target : String) :
    AsksConvert (convertRequest given source target) given source target :=
  ⟨rfl, rfl, rfl, rfl⟩

theorem rereadDiffers {literal token : String} (valid : (MetricUnit.parse literal).isValid)
    (known : (Prefix.lookup token).isValid)
    (reread : Reread (Prefix.lookup token) (MetricUnit.parse literal).measure) :
    ∃ n, ¬ ReadsBack literal token (.number (.integer n)) := by
  have canonical := parseCanonicalOfValid valid
  obtain ⟨n, differ⟩ := rereadProbed canonical.scale known canonical.meant reread
  refine ⟨n.val, fun back => differ (IntegerType.valueEqIff.mpr ?_)⟩
  have sampled : Params.sample (.number (.integer n.val)) = .ok (.int64 n) := dif_pos n.holds
  have first := asksRescale (.number (.integer n.val)) literal token
  have second := asksConvert (.number (.integer n.val)) literal
    ((MetricUnit.parse literal).withScale (Prefix.lookup token)).short
  have same := back _ _ _ _ first (rescaleAnswered first sampled valid known) second
  rw [convertRescaled second sampled valid known, valueInteger, valueInteger] at same
  have fields : (Json.object _) = .object _ := Except.ok.inj same
  simp only [Json.object.injEq, List.cons.injEq, Prod.mk.injEq, Json.number.injEq,
    Number.integer.injEq, and_true, true_and] at fields
  exact fields.symm

theorem rescaledTextReadsBack (literal token : String) :
    (∀ given r result, AsksRescale r given literal token → ofRequest r = .ok result →
      ∃ w v, result = .object [("unit", .string w), ("value", v)] ∧
        ∀ r', AsksConvert r' given literal w → ∃ v', ofRequest r' = .ok (.object [("value", v')])) ∧
    if (MetricUnit.parse literal).isValid ∧ (Prefix.lookup token).isValid ∧
        Reread (Prefix.lookup token) (MetricUnit.parse literal).measure then
      ∃ n, ¬ ReadsBack literal token (.number (.integer n))
    else ∀ given, ReadsBack literal token given := by
  constructor
  · intro given r result asks ok
    obtain ⟨x, sampled, valid, known, rfl⟩ := rescaleSource asks ok
    exact ⟨_, _, rfl, fun r' again => ⟨_, convertRescaled again sampled valid known⟩⟩
  · split
    case isTrue differ =>
      obtain ⟨valid, known, reread⟩ := differ
      exact rereadDiffers valid known reread
    case isFalse agree =>
      intro given w v r r' asks answer again
      obtain ⟨x, sampled, valid, known, result⟩ := rescaleSource asks answer
      exact readsBackPlain (fun reread => agree ⟨valid, known, reread⟩) given w v r r' asks answer again

theorem kiloReadsBack :
    (∃ n, ¬ ReadsBack "%" "K" (.number (.integer n))) ∧ ∀ given, ReadsBack "B" "K" given := by
  have percentage := (rescaledTextReadsBack "%" "K").2
  have bytes := (rescaledTextReadsBack "B" "K").2
  rw [if_pos (by decide +kernel)] at percentage
  rw [if_neg (by decide +kernel)] at bytes
  exact ⟨percentage, bytes⟩

end MetricUnits.Answer

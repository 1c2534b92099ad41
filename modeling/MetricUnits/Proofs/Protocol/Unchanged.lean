import MetricUnits.Proofs.Protocol.Values

/-! Conversions of a unit to itself. However the unit is spelled on either side, such a conversion is the
identity, which leaves every sample as it is. So a whole number of 64 bits comes back with the digits that it was
written with, also where no double holds it. -/
namespace MetricUnits
open Json

theorem Decimal.integerText (n : Int) : String.ofList (integerDigits n) = toString n := by
  cases n with
  | ofNat n => rfl
  | negSucc n =>
    refine String.toList_inj.mp ?_
    show _ = ("-" ++ Nat.repr (n + 1)).toList
    simp [integerDigits, Nat.repr]

theorem MetricUnit.conversionToItself {u : MetricUnit} (valid : u.isValid) :
    u.conversionTo u = .ok .identity := by
  rw [conversionToSame valid valid rfl rfl]
  simp [Prefix.conversion]

namespace Params

inductive Converting (given : Json) (source target : String) : Json → Prop
  | items : Converting given source target (.array [given, .string source, .string target])
  | fields {params} : params.field? "from" = some (.string source) →
      params.field? "to" = some (.string target) → params.field? "value" = some given →
      Converting given source target params

theorem Converting.decoded {given params : Json} {source target : String} {x : Sample}
    (converting : Converting given source target params) (sampled : sample given = .ok x) :
    ConvertParams.ofJson params = .ok ⟨x, source, target⟩ := by
  cases converting with
  | items =>
    rw [ConvertParams.ofJson, ConvertParams.ofItems, numberAndTexts, sampled]
    rfl
  | fields source target value =>
    have asks : Answer.AsksConvert ⟨.null, "convert", params⟩ given _ _ := ⟨rfl, source, target, value⟩
    have decoded := asks.params
    rwa [sampled] at decoded

theorem sampleWhole {n : Int} (readable : (Number.integer n).Readable) :
    ∃ x, sample (.number (.integer n)) = .ok x ∧ Answer.value x = .number (.integer n) := by
  by_cases signed : IntegerType.int64.Holds n
  · exact ⟨.int64 ⟨n, signed⟩, dif_pos signed, rfl⟩
  · have unsigned : IntegerType.uint64.Holds n := readable.resolve_left signed
    exact ⟨.uint64 ⟨n, unsigned⟩, (dif_neg signed).trans (dif_pos unsigned), rfl⟩

end Params

def Request.convertText (id : Json) (digits source target : String) : String :=
  r#"{"id":"# ++ id.compact ++ r#","method":"convert","params":{"from":"# ++
    (Json.string source).compact ++ r#","to":"# ++ (Json.string target).compact ++ r#","value":"# ++
    digits ++ r"}}"

def Response.valueText (config : Config) (id : Json) (digits : String) : String :=
  if config.pretty then
    r#"{
  "id": "# ++ String.ofList (id.prettyChars 1) ++ r#",
  "result": {
    "value": "# ++ digits ++ r"
  }
}
"
  else
    r#"{"id":"# ++ id.compact ++ r#","result":{"value":"# ++ digits ++ r"}}" ++ "\n"

theorem Request.convertLine (id : Json) (n : Int) (source target : String) :
    Request.line ⟨id, "convert", .object [("from", .string source), ("to", .string target),
      ("value", .number (.integer n))]⟩ = convertText id (toString n) source target := by
  refine String.toList_inj.mp ?_
  rw [← Decimal.integerText]
  simp only [line, convertText, compact, compactChars, compactFields, numberChars, String.toList_append,
    String.toList_ofList, List.append_assoc, List.cons_append]
  rfl

theorem Response.valueWritten (config : Config) {r : Response} {n : Int}
    (answered : r.outcome = .ok (.object [("value", .number (.integer n))])) :
    Program.write config r = valueText config r.id (toString n) := by
  refine String.toList_inj.mp ?_
  rw [← Decimal.integerText, Program.write, toJson, answered, valueText]
  by_cases pretty : config.pretty
  · simp only [if_pos pretty, Json.pretty, prettyChars, prettyFields, numberChars, String.toList_append,
      String.toList_ofList, List.append_assoc, List.cons_append]
    rfl
  · simp only [if_neg pretty, compact, compactChars, compactFields, numberChars, String.toList_append,
      String.toList_ofList, List.append_assoc, List.cons_append]
    rfl

namespace Response
open Answer
variable {a b : String}

theorem sampleUnchanged {r : Request} {x : Sample} (named : r.method = "convert")
    (decoded : ConvertParams.ofJson r.params = .ok ⟨x, a, b⟩) (valid : (MetricUnit.parse a).isValid)
    (same : MetricUnit.parse a = MetricUnit.parse b) :
    (ofRequest r).outcome = .ok (.object [("value", value x)]) := by
  have conversion : (MetricUnit.parse a).conversionTo (MetricUnit.parse b) = .ok .identity := by
    rw [← same]
    exact MetricUnit.conversionToItself valid
  have source : ConvertSource r.params ⟨x, a, b⟩ .identity := ⟨decoded, valid, same ▸ valid, conversion⟩
  exact ((convertClassified named).2 _).mpr ⟨_, _, source, rfl⟩

/- In the last part the id may be any value that is read back. If it holds doubles, this takes correctly
rounded reading; the number that is asked about is whole, and does not. -/
theorem wholeUnchanged (config : Config) (valid : (MetricUnit.parse a).isValid)
    (same : MetricUnit.parse a = MetricUnit.parse b) {n : Int} (low : -2 ^ 63 ≤ n) (high : n ≤ 2 ^ 64 - 1) :
    (∀ line r, Request.ofLine line = .ok r → r.method = "convert" →
      Params.Converting (.number (.integer n)) a b r.params →
      (ofLine line).outcome = .ok (.object [("value", .number (.integer n))]) ∧
      Program.write config (ofLine line) = valueText config r.id (toString n)) ∧
    ∀ id, Within Number.Readable (nestingLimit - 1) id →
      Program.write config (ofLine (Request.convertText id (toString n) a b)) =
        valueText config id (toString n) := by
  have readable := Json.wholeReadable low high
  have answered {line : String} {r : Request} (accepted : Request.ofLine line = .ok r)
      (named : r.method = "convert") (converting : Params.Converting (.number (.integer n)) a b r.params) :
      (ofLine line).outcome = .ok (.object [("value", .number (.integer n))]) ∧
      Program.write config (ofLine line) = valueText config r.id (toString n) := by
    obtain ⟨x, sampled, written⟩ := Params.sampleWhole readable
    have outcome := sampleUnchanged named (converting.decoded sampled) valid same
    rw [written] at outcome
    rw [ofLineAccepted accepted]
    exact ⟨outcome, valueWritten config outcome⟩
  refine ⟨fun _ _ => answered, fun id within => ?_⟩
  rw [← Request.convertLine]
  have flat : ∀ f ∈ [("from", Json.string a), ("to", .string b), ("value", .number (.integer n))],
      Within Number.Readable 0 f.2 := by
    simp [Within.string, Within.number readable]
  have params : Within Number.Readable (nestingLimit - 1) (.object _) :=
    fieldsWithin ["from", "to", "value"] rfl (by decide) flat
  have accepted := Request.lineReads (r := ⟨id, "convert", _⟩) within params
  exact (answered accepted rfl (.fields rfl rfl rfl)).2

/- The nearest double to the largest number of 64 bits is beyond it. -/
theorem largestUnchanged :
    let config : Config := ⟨"info", false⟩
    let text := r#"{"id":"a","method":"convert","params":"# ++
      r#"{"from":"mB/s","to":"MegaBytes/SEC","value":18446744073709551615}}"#
    ((MetricUnit.parse "mB/s").isValid ∧ MetricUnit.parse "mB/s" = MetricUnit.parse "MegaBytes/SEC") ∧
    Program.write config (ofLine text) =
      r#"{"id":"a","result":{"value":18446744073709551615}}"# ++ "\n" := by
  intro config text
  have valid : (MetricUnit.parse "mB/s").isValid := by decide +kernel
  have same : MetricUnit.parse "mB/s" = MetricUnit.parse "MegaBytes/SEC" := by decide +kernel
  have unchanged := wholeUnchanged config valid same (n := 18446744073709551615) (by decide) (by decide)
  exact ⟨⟨valid, same⟩, unchanged.2 (.string "a") (.string _)⟩

end Response
end MetricUnits

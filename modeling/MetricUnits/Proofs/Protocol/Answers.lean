import MetricUnits.Protocol.Answer
import MetricUnits.Proofs.Json.Values

/-! What requests are answered with: results that can be read back, or errors that say what is wrong with
the request, and never that it could not be read. -/
namespace MetricUnits
open Json

attribute [simp] Within.null Within.bool Within.string

def UnitError.OfRequest (e : UnitError) : Prop := ∀ detail, e ≠ .unreadable detail

theorem UnitError.OfRequest.code {e : UnitError} (of : e.OfRequest) : e.code ≠ "PARSE_ERROR" := by
  cases e with
  | unreadable detail => exact absurd rfl (of detail)
  | _ => simp [UnitError.code]

theorem Conversion.applySampleType (c : Conversion) (s : Sample) : (c.applySample s).type = s.type := by
  unfold Conversion.applySample
  split <;> rfl

def Yields {ε α : Type} (fails : ε → Prop) (good : α → Prop) : Except ε α → Prop
  | .ok x => good x
  | .error e => fails e

namespace Yields
variable {ε α β : Type} {fails : ε → Prop} {good : α → Prop} {better : β → Prop}

theorem bind {x : Except ε α} {g : α → Except ε β} (first : Yields fails good x)
    (next : ∀ a, good a → Yields fails better (g a)) : Yields fails better (x >>= g) := by
  cases x with
  | error e => exact first
  | ok a => exact next a first

theorem map {x : Except ε α} {g : α → β} (first : Yields fails good x)
    (next : ∀ a, good a → better (g a)) : Yields fails better (x.map g) := by
  cases x with
  | error e => exact first
  | ok a => exact next a first

theorem mapError {δ : Type} {refused : δ → Prop} {x : Except ε α} {g : ε → δ}
    (first : Yields fails good x) (next : ∀ e, fails e → refused (g e)) :
    Yields refused good (x.mapError g) := by
  cases x with
  | error e => exact next e first
  | ok a => exact first

theorem anyway {ε α : Type} (x : Except ε α) : Yields (fun _ => True) (fun _ => True) x := by
  cases x <;> trivial

end Yields

namespace Params

def Numeric (s : Sample) : Prop := s.type = .int64 ∨ s.type = .uint64 ∨ s.type = .float64

abbrev Decodes {α : Type} (good : α → Prop) (x : Except Fault α) : Prop := Yields (fun _ => True) good x

theorem sampleDecodes (given : Json) : Decodes Numeric (sample given) := by
  unfold sample
  split
  · split
    · exact .inl rfl
    · split
      · exact .inr (.inl rfl)
      · trivial
  · exact .inr (.inr rfl)
  · trivial

inductive Given : (params given : Json) → Prop
  | item {given rest} : Given (.array (given :: rest)) given
  | field {fields given} : (Json.object fields).field? "value" = some given →
      Given (.object fields) given

section Value
variable {params : Json} {good : Sample → Prop}

theorem numberAndTextsDecodes (name : String) {items : List Json}
    (each : ∀ given, Given (.array items) given → Decodes good (sample given)) :
    Decodes (fun found => good found.1) (numberAndTexts name items) := by
  cases items with
  | nil => trivial
  | cons value items =>
    refine (each value .item).bind fun s holds => ?_
    cases items with
    | nil => trivial
    | cons first items =>
      refine (Yields.anyway _).bind fun first _ => ?_
      cases items with
      | nil => trivial
      | cons second rest =>
        refine (Yields.anyway _).bind fun second _ => ?_
        split
        · exact holds
        · trivial

theorem valueFieldDecodes
    (each : ∀ given, params.field? "value" = some given → Decodes good (sample given)) :
    Decodes (fun found => ∀ s ∈ found, good s) (field? "value" sample params) := by
  unfold field?
  split
  · rename_i value found
    exact (each value found).map fun s holds _ same => Option.some.inj same ▸ holds
  · intro s missing
    cases missing

end Value

theorem requireDecodes {α : Type} {good : α → Prop} (key : String) {found : Option α}
    (holds : ∀ x ∈ found, good x) : Decodes good (require key found) := by
  cases found with
  | none => trivial
  | some x => exact holds x rfl

end Params

section Decodes
open Params
variable {good : Sample → Prop}

theorem ConvertParams.decodes (params : Json)
    (each : ∀ given, Given params given → Decodes good (sample given)) :
    Decodes (fun p => good p.value) (ofJson params) := by
  cases params with
  | array items => exact (numberAndTextsDecodes name each).bind fun found holds => holds
  | object fields =>
    refine (Yields.anyway _).bind fun source _ => (Yields.anyway _).bind fun target _ => ?_
    refine (valueFieldDecodes fun given found => each given (.field found)).bind fun found holds => ?_
    refine (requireDecodes _ holds).bind fun s holds => ?_
    exact (Yields.anyway _).bind fun source _ => (Yields.anyway _).bind fun target _ => holds
  | _ => trivial

theorem RescaleParams.decodes (params : Json)
    (each : ∀ given, Given params given → Decodes good (sample given)) :
    Decodes (fun p => good p.value) (ofJson params) := by
  cases params with
  | array items => exact (numberAndTextsDecodes name each).bind fun found holds => holds
  | object fields =>
    refine (Yields.anyway _).bind fun token _ => (Yields.anyway _).bind fun literal _ => ?_
    refine (valueFieldDecodes fun given found => each given (.field found)).bind fun found holds => ?_
    refine (requireDecodes _ holds).bind fun s holds => ?_
    exact (Yields.anyway _).bind fun literal _ => (Yields.anyway _).bind fun token _ => holds
  | _ => trivial

end Decodes

namespace Answer

theorem doubleWithin (x : Double) (d : Nat) : Within Number.Readable d (.ofDouble x) := by
  unfold ofDouble ofNumber
  split
  · rename_i finite
    exact .number finite
  · exact .null

theorem valueWithin {s : Sample} (numeric : Params.Numeric s) (d : Nat) :
    Within Number.Readable d (value s) := by
  obtain ⟨type, x⟩ := s
  obtain rfl | rfl | rfl := numeric
  · exact .number (.inl x.holds)
  · exact .number (.inr x.holds)
  · exact doubleWithin x d

abbrev Sends : Except UnitError Json → Prop := Yields UnitError.OfRequest (Within Number.Readable 2)

theorem decodedYields {α : Type} {good : α → Prop} {params : Except Fault α}
    (decodes : Params.Decodes good params) : Yields UnitError.OfRequest good (decoded params) :=
  decodes.mapError fun _ _ => nofun

theorem validUnitYields (literal : String) :
    Yields UnitError.OfRequest (fun _ => True) (validUnit literal) := by
  unfold validUnit
  dsimp only
  split
  · trivial
  · nofun

theorem conversionYields (source target : MetricUnit) :
    Yields UnitError.OfRequest (fun _ => True) (source.conversionTo target) := by
  unfold MetricUnit.conversionTo
  split
  · nofun
  · split
    · nofun
    · split
      · trivial
      · trivial
      · split
        · trivial
        · nofun

theorem applyNumeric {s : Sample} (numeric : Params.Numeric s) (c : Conversion) :
    Params.Numeric (c.applySample s) := by
  unfold Params.Numeric
  rwa [Conversion.applySampleType]

theorem fieldsWithin {fields : List (String × Json)} (keys : List String)
    (same : fields.map (·.1) = keys) (sorted : keys.Pairwise (· < ·))
    (flat : ∀ f ∈ fields, Within Number.Readable 0 f.2) {d : Nat} :
    Within Number.Readable (d + 1) (.object fields) := by
  subst same
  exact .object (List.pairwise_map.mp sorted) fun f mem =>
    (flat f mem).mono (fun _ readable => readable) (Nat.zero_le d)

theorem parseWithin (p : ParseParams) : Within Number.Readable 2 (parse p) := by
  refine fieldsWithin ["divisor", "long", "measure", "prefix", "short", "valid"] rfl (by decide) ?_
  cases (MetricUnit.parse p.literal).divisor <;> simp [Measure.toJson, Prefix.toJson]

theorem convertSends {p : ConvertParams} (numeric : Params.Numeric p.value) : Sends (convert p) := by
  refine (validUnitYields _).bind fun source _ => (validUnitYields _).bind fun target _ => ?_
  refine (conversionYields source target).bind fun c _ => ?_
  exact fieldsWithin ["value"] rfl (by decide) (by simp [valueWithin (applyNumeric numeric c)])

theorem convertPrefixSends {p : RescaleParams} (numeric : Params.Numeric p.value) :
    Sends (convertPrefix p) := by
  refine (validUnitYields _).bind fun u _ => ?_
  dsimp only
  split
  · nofun
  · split
    · nofun
    · exact fieldsWithin ["unit", "value"] rfl (by decide)
        (by simp [valueWithin (applyNumeric numeric _)])

theorem listPrefixesWithin : Within Number.Readable 2 listPrefixes := by
  refine .array fun x mem => ?_
  obtain ⟨p, _, rfl⟩ := List.mem_map.mp mem
  exact fieldsWithin ["factor", "name", "symbol"] rfl (by decide) (by simp [Prefix.toJson, doubleWithin])

theorem listMeasuresWithin : Within Number.Readable 2 listMeasures := by
  refine .array fun x mem => ?_
  obtain ⟨m, _, rfl⟩ := List.mem_map.mp mem
  exact fieldsWithin ["long", "name", "symbol"] rfl (by decide) (by simp [Measure.toJson])

theorem ofMethodSends (m : Method) (params : Json) : Sends (ofMethod m params) := by
  cases m with
  | parse => exact (decodedYields (Yields.anyway _)).bind fun p _ => parseWithin p
  | convert =>
    have decodes := ConvertParams.decodes params fun given _ => Params.sampleDecodes given
    exact (decodedYields decodes).bind fun p => convertSends
  | convertPrefix =>
    have decodes := RescaleParams.decodes params fun given _ => Params.sampleDecodes given
    exact (decodedYields decodes).bind fun p => convertPrefixSends
  | listPrefixes => exact listPrefixesWithin
  | listMeasures => exact listMeasuresWithin

theorem ofRequestSends (r : Request) : Sends (ofRequest r) := by
  unfold ofRequest
  split
  · exact ofMethodSends _ _
  · nofun

end Answer
end MetricUnits

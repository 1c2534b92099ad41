import MetricUnits.Proofs.Json.Records
import MetricUnits.Proofs.Scaling.Integers

/-! Reports of errors and samples, written and read again. The texts of a report may hold any characters,
and a suggestion that is left out is read as none. The tag and the value of a sample may come in either
order: a value that comes first is kept until the tag is known, and is then taken for what it would have
been taken for behind the tag. Whole numbers are taken for themselves, or refused. -/
namespace MetricUnits
open Json Reader

namespace ErrorReport

def ofText (text : String) : Except Fault ErrorReport := readWhole (reader nestingLimit) text

def suggestionField : Option String → List (String × Json)
  | some s => [("suggestion", .string s)]
  | none => []

theorem toJsonFields (r : ErrorReport) : r.toJson = .object
    (("code", .string r.code) :: ("message", .string r.message) :: suggestionField r.suggestion) := by
  unfold toJson
  cases r.suggestion <;> rfl

theorem suggestionRun (spacing : Spacing) (code message : String) (suggestion : Option String) :
    FieldRun readField spacing 1 ⟨some code, some message, none⟩ (suggestionField suggestion)
      ⟨some code, some message, suggestion.map some⟩ := by
  cases suggestion with
  | none => exact .done
  | some s =>
    refine .next (fun rest _ => ?_) .done
    have read := onceFieldReads "suggestion" (spacedOptional spacing s rest)
    simp [readField, Spacing.chars, read]

theorem fieldsRun (spacing : Spacing) (r : ErrorReport) :
    FieldRun readField spacing 1 {}
      (("code", .string r.code) :: ("message", .string r.message) :: suggestionField r.suggestion)
      ⟨some r.code, some r.message, r.suggestion.map some⟩ := by
  have code (rest : List Char) :
      readField {} "code" (':' :: (spacing.behindColon ++ (stringChars r.code ++ rest))) =
        .ok (⟨some r.code, none, none⟩, rest) := by
    simp [readField, onceFieldReads "code" (spacedString spacing r.code rest)]
  have message (rest : List Char) :
      readField ⟨some r.code, none, none⟩ "message"
        (':' :: (spacing.behindColon ++ (stringChars r.message ++ rest))) =
          .ok (⟨some r.code, some r.message, none⟩, rest) := by
    simp [readField, onceFieldReads "message" (spacedString spacing r.message rest)]
  exact .next (fun rest _ => code rest) (.next (fun rest _ => message rest) (suggestionRun spacing _ _ _))

theorem textReads (spacing : Spacing) (r : ErrorReport) : ofText (spacing.text r.toJson) = .ok r := by
  rw [toJsonFields]
  refine recordAccepted rfl (fieldsRun spacing r) ?_
  have absent : ((r.suggestion.map some).getD none) = r.suggestion := by
    cases r.suggestion <;> rfl
  simp [require, absent]

theorem suggestionWritten (r : ErrorReport) :
    r.toJson.field? "suggestion" = r.suggestion.map Json.string := by
  rw [toJsonFields]
  cases r.suggestion <;> rfl

theorem reportsReadBack (e : UnitError) :
    ofText e.report.toJson.compact = .ok e.report ∧ ofText e.report.toJson.pretty = .ok e.report ∧
    e.report.toJson.field? "suggestion" = e.report.suggestion.map Json.string ∧
    (e.report.suggestion = none ↔ e.code ∈ ["PARSE_ERROR", "INVALID_REQUEST"]) := by
  refine ⟨?_, ?_, suggestionWritten e.report, ?_⟩
  · rw [← Spacing.noneText, textReads]
  · rw [← Spacing.linesText, textReads]
  · cases e <;> simp [UnitError.report, UnitError.suggestion, UnitError.code]

end ErrorReport

namespace SampleType

theorem tagKnown (t : SampleType) : named.lookup t.tag = some t := by
  cases t <;> rfl

theorem tagReads (spacing : Spacing) (t : SampleType) (depth : Nat) (rest : List Char) :
    reader depth (spacing.behindColon ++ (stringChars t.tag ++ rest)) = .ok (t, rest) :=
  spacedVariant spacing t.tagKnown depth rest

theorem heldReadable {t : SampleType} {i : IntegerType} (integer : t.representation = .integer i) {n : Int}
    (held : i.Holds n) : (Number.integer n).Readable := by
  have bounds : -2 ^ 63 ≤ i.least ∧ i.greatest ≤ 2 ^ 64 - 1 := by
    cases t <;> cases integer <;> decide
  obtain ⟨least, greatest⟩ := held
  exact wholeReadable (by omega) (by omega)

end SampleType

namespace Sample

def ofText (text : String) : Except Fault Sample := readWhole (reader nestingLimit) text

theorem secondDecides {spacing : Spacing} {first second : String} {x y : Json} {made : Partial}
    {outcome : Except Fault Sample}
    (begun : ∀ rest, Stops rest → readField (nestingLimit - 1) .nothing first
      (':' :: (spacing.behindColon ++ (spacing.chars 1 x ++ rest))) = .ok (made, rest))
    (decided : ∀ rest, Stops rest → readField (nestingLimit - 1) made second
      (':' :: (spacing.behindColon ++ (spacing.chars 1 y ++ rest))) =
        outcome.map fun s => (.whole s, rest)) :
    ofText (spacing.text (.object [(first, x), (second, y)])) = outcome := by
  cases outcome with
  | ok s => exact recordAccepted rfl (.next begun (.next decided .done)) rfl
  | error e => exact recordRefused rfl (.next begun .done) decided []

theorem tagFirstReads (spacing : Spacing) (t : SampleType) {n : Number} (readable : n.Readable) :
    ofText (spacing.text (.object [("type", .string t.tag), ("value", .number n)])) = ofNumber t n := by
  have tag (rest : List Char) : readField (nestingLimit - 1) .nothing "type"
      (':' :: (spacing.behindColon ++ (stringChars t.tag ++ rest))) = .ok (.tagged t, rest) := by
    simp [readField, colonReads, SampleType.tagReads]
  have value (rest : List Char) (stop : Stops rest) : readField (nestingLimit - 1) (.tagged t) "value"
      (':' :: (spacing.behindColon ++ (numberChars n ++ rest))) =
        (ofNumber t n).map fun s => (.whole s, rest) := by
    have read := spacedNumber spacing readable t.tag (ofNumber t) stop
    cases taken : ofNumber t n with
    | ok s => simp [readField, colonReads, readValue, read, taken, Except.map]
    | error e => simp [readField, colonReads, readValue, read, taken, Except.map, Except.bind]
  exact secondDecides (fun rest _ => tag rest) value

theorem valueFirstReads (spacing : Spacing) (t : SampleType) {n : Number} (readable : n.Readable) :
    ofText (spacing.text (.object [("value", .number n), ("type", .string t.tag)])) = ofNumber t n := by
  have value (rest : List Char) (stop : Stops rest) : readField (nestingLimit - 1) .nothing "value"
      (':' :: (spacing.behindColon ++ (numberChars n ++ rest))) =
        .ok (.untagged (.number n), rest) := by
    -- without a tag to say what it is, the value is read as any other
    simp [readField, colonReads, valueBlanks spacing.colonBlank, numberValueReads _ readable stop]
  have tag (rest : List Char) : readField (nestingLimit - 1) (.untagged (.number n)) "type"
      (':' :: (spacing.behindColon ++ (stringChars t.tag ++ rest))) =
        (ofNumber t n).map fun s => (.whole s, rest) := by
    cases taken : ofNumber t n with
    | ok s => simp [readField, colonReads, SampleType.tagReads, ofValue, taken, Except.map]
    | error e => simp [readField, colonReads, SampleType.tagReads, ofValue, taken, Except.map, fail]
  exact secondDecides value fun rest _ => tag rest

inductive Written (t : SampleType) (n : Int) : String → Prop
  | tagFirst (spacing : Spacing) : Written t n
      (spacing.text (.object [("type", .string t.tag), ("value", .number (.integer n))]))
  | valueFirst (spacing : Spacing) : Written t n
      (spacing.text (.object [("value", .number (.integer n)), ("type", .string t.tag)]))

variable {t : SampleType} {i : IntegerType} {n : Int}

theorem writtenReads {text : String} (written : Written t n text) (readable : (Number.integer n).Readable) :
    ofText text = ofNumber t (.integer n) := by
  cases written with
  | tagFirst spacing => exact tagFirstReads spacing t readable
  | valueFirst spacing => exact valueFirstReads spacing t readable

theorem toJsonWritten (spacing : Spacing) {s : Sample} (holds : s.Holds i n) :
    Written s.type n (spacing.text s.toJson) := by
  have number : s.toNumber = .integer n := Representation.toNumberWhole holds.type holds.number
  rw [toJson, number]
  exact .tagFirst spacing

theorem integerReads (spacing : Spacing) {s : Sample} (integer : s.type.representation = .integer i) :
    ofText (spacing.text s.toJson) = .ok s := by
  obtain ⟨n, number⟩ := Representation.wholeExists integer s.value
  have holds : s.Holds i n := ⟨integer, number⟩
  rw [writtenReads (toJsonWritten spacing holds) (SampleType.heldReadable integer holds.held)]
  exact (ofNumberIff integer).mpr ⟨rfl, number⟩

theorem integersReadBack (integer : t.representation = .integer i) :
    (∀ s : Sample, s.type = t → ofText s.toJson.compact = .ok s ∧ ofText s.toJson.pretty = .ok s) ∧
    ∀ n : Int, -2 ^ 63 ≤ n → n ≤ 2 ^ 64 - 1 → ∀ text, Written t n text →
      ((∃ s, ofText text = .ok s) ↔ i.Holds n) ∧
      (∀ s, ofText text = .ok s ↔ s.type = t ∧ s.whole? = some n) ∧
      (¬ i.Holds n → ofText text = .error (.wrongInteger n t.tag)) := by
  refine ⟨?_, fun n low high text written => ?_⟩
  · rintro s rfl
    rw [← Spacing.noneText, ← Spacing.linesText]
    exact ⟨integerReads .none integer, integerReads .lines integer⟩
  · rw [writtenReads written (wholeReadable low high)]
    refine ⟨⟨?_, fun held => ?_⟩, fun s => ofNumberIff integer, fun beyond => ?_⟩
    · rintro ⟨s, made⟩
      obtain ⟨rfl, number⟩ := (ofNumberIff integer).mp made
      exact Representation.wholeHeld integer number
    · obtain ⟨x, _, number⟩ := Representation.ofNumberHeld t.tag integer held
      exact ⟨⟨t, x⟩, (ofNumberIff integer).mpr ⟨rfl, number⟩⟩
    · rw [ofNumber, Representation.ofNumberBeyond t.tag integer beyond]
      rfl

theorem endsReadBack :
    let last : Sample := ⟨.uint32, ⟨4294967295, by decide⟩⟩
    SampleType.uint32.representation = .integer .uint32 ∧
    ofText last.toJson.compact = .ok last ∧
    ofText r#"{"value":4294967295,"type":"u32"}"# = .ok last ∧
    ofText r#"{"type":"u32","value":-1}"# = .error (.wrongInteger (-1) "u32") := by
  intro last
  obtain ⟨back, taken⟩ := @integersReadBack .uint32 .uint32 rfl
  have before := taken (-1) (by decide) (by decide) _ (.tagFirst .none)
  have within := taken 4294967295 (by decide) (by decide) _ (.valueFirst .none)
  exact ⟨rfl, (back last rfl).1, (within.2.1 last).mpr ⟨rfl, rfl⟩, before.2.2 (by decide)⟩

end Sample

end MetricUnits

import MetricUnits.Conversion
import MetricUnits.Json.Shape

/-! Units, samples, error reports and conversions as structured data. -/
namespace MetricUnits
open Json

namespace Prefix

def toJson (p : Prefix) : Json := .string p.name

def named : List (String × Prefix) := (invalid :: all).map fun p => (p.name, p)

def reader (depth : Nat) : Reader Prefix := Reader.plainVariant named depth

end Prefix

namespace Measure

def toJson (m : Measure) : Json := .string m.name

def named : List (String × Measure) := (invalid :: all).map fun m => (m.name, m)

def reader (depth : Nat) : Reader Measure := Reader.plainVariant named depth

end Measure

namespace MetricUnit

def toJson (u : MetricUnit) : Json :=
  .object [("prefix", u.scale.toJson), ("measure", u.measure.toJson),
    ("divisor", match u.divisor with
      | some d => d.toJson
      | none => .null)]

structure Partial where
  scale : Option Prefix := none
  measure : Option Measure := none
  divisor : Option (Option Measure) := none

def readField (depth : Nat) (made : Partial) (key : String) : Reader Partial :=
  match key with
  | "prefix" => return { made with
      scale := ← Reader.onceField key made.scale (Prefix.reader depth) }
  | "measure" => return { made with
      measure := ← Reader.onceField key made.measure (Measure.reader depth) }
  | "divisor" => return { made with
      divisor := ← Reader.onceField key made.divisor (Reader.optional (Measure.reader depth)) }
  | _ => do Reader.skipField; return made

def layouts : Reader.Layouts MetricUnit where
  sequence depth := do
    let expected := "struct Unit with 3 elements"
    let scale ← Reader.item 0 expected (Prefix.reader depth)
    let measure ← Reader.item 1 expected (Measure.reader depth)
    let divisor ← Reader.item 2 expected (Reader.optional (Measure.reader depth))
    return ⟨scale, measure, divisor⟩
  map depth := do
    let made ← Reader.fields (readField depth) {}
    let scale ← Reader.require "prefix" made.scale
    let measure ← Reader.require "measure" made.measure
    return ⟨scale, measure, made.divisor.getD none⟩

def reader (depth : Nat) : Reader MetricUnit := Reader.record "struct Unit" layouts depth

end MetricUnit

namespace Representation

def ofNumber (expected : String) : (r : Representation) → Number → Except Fault r.Value
  | float64, .integer n => .ok (Binary.ofInt .double n : Double)
  | float64, .double x => .ok (x : Double)
  | float64, .single x => .ok (x.convert .double : Double)
  | float32, .integer n => .ok (Binary.ofInt .single n : Single)
  | float32, .double x => .ok (x.convert .single : Single)
  | float32, .single x => .ok (x : Single)
  | integer t, .integer n =>
      if h : t.Holds n then .ok (⟨n, h⟩ : t.Value) else .error (.wrongInteger n expected)
  | integer _, n => .error (.wrongType (.number n) expected)

def toNumber : (r : Representation) → r.Value → Number
  | float64, (x : Double) => .double x
  | float32, (x : Single) => .single x
  | integer _, (n : IntegerType.Value _) => .integer n.val

end Representation

namespace SampleType

def named : List (String × SampleType) := all.map fun t => (t.tag, t)

def reader (depth : Nat) : Reader SampleType := Reader.plainVariant named depth

end SampleType

namespace Sample

def toNumber (s : Sample) : Number := s.type.representation.toNumber s.value

def toJson (s : Sample) : Json :=
  .object [("type", .string s.type.tag), ("value", .number s.toNumber)]

def ofNumber (t : SampleType) (n : Number) : Except Fault Sample :=
  (t.representation.ofNumber t.tag n).map fun x => ⟨t, x⟩

def readValue (t : SampleType) : Reader Sample := Reader.numberAs t.tag (ofNumber t)

def ofValue (t : SampleType) : Json → Except Fault Sample
  | .number n => ofNumber t n
  | other => .error (.wrongType other.found t.tag)

inductive Partial
  | nothing
  | tagged (t : SampleType)
  | untagged (value : Json)
  | whole (s : Sample)

def readField (depth : Nat) (made : Partial) (key : String) : Reader Partial :=
  match key, made with
  | "type", .nothing => do
      Reader.colon
      return .tagged (← SampleType.reader depth)
  | "type", .untagged value => do
      Reader.colon
      match ofValue (← SampleType.reader depth) value with
      | .ok s => return .whole s
      | .error e => Reader.fail e
  | "type", _ => Reader.fail (.duplicateField key)
  | "value", .nothing => do
      Reader.colon
      return .untagged (← Reader.value depth)
  | "value", .tagged t => do
      Reader.colon
      return .whole (← readValue t)
  | "value", _ => Reader.fail (.duplicateField key)
  | _, made => do
      Reader.skipField
      return made

def expected : String := "adjacently tagged enum Sample"

/- A sample from an array of tag and value, or from an object with both in any order. In an array
the tag is its name and nothing else. -/
def layouts : Reader.Layouts Sample where
  sequence _ := do
    let t ← Reader.item 0 expected (Reader.namedVariant SampleType.named)
    Reader.item 1 expected (readValue t)
  map depth := do
    match ← Reader.fields (readField depth) .nothing with
    | .nothing | .untagged _ => Reader.fail (.missingField "type")
    | .tagged _ => Reader.fail (.missingField "value")
    | .whole s => return s

def reader (depth : Nat) : Reader Sample := Reader.record expected layouts depth

end Sample

namespace ErrorReport

def toJson (r : ErrorReport) : Json :=
  .object ([("code", .string r.code), ("message", .string r.message)] ++
    match r.suggestion with
    | some s => [("suggestion", .string s)]
    | none => [])

structure Partial where
  code : Option String := none
  message : Option String := none
  suggestion : Option (Option String) := none

def readField (made : Partial) (key : String) : Reader Partial :=
  match key with
  | "code" => return { made with code := ← Reader.onceField key made.code Reader.string }
  | "message" => return { made with message := ← Reader.onceField key made.message Reader.string }
  | "suggestion" => return { made with
      suggestion := ← Reader.onceField key made.suggestion (Reader.optional Reader.string) }
  | _ => do Reader.skipField; return made

def layouts : Reader.Layouts ErrorReport where
  sequence _ := do
    let expected := "struct ErrorReport with 3 elements"
    let code ← Reader.item 0 expected Reader.string
    let message ← Reader.item 1 expected Reader.string
    let suggestion ← Reader.item 2 expected (Reader.optional Reader.string)
    return ⟨code, message, suggestion⟩
  map _ := do
    let made ← Reader.fields readField {}
    let code ← Reader.require "code" made.code
    let message ← Reader.require "message" made.message
    return ⟨code, message, made.suggestion.getD none⟩

def reader (depth : Nat) : Reader ErrorReport := Reader.record "struct ErrorReport" layouts depth

end ErrorReport

namespace Conversion

def toJson : Conversion → Json
  | identity => .string "Identity"
  | scale k => .object [("Scale", .number (.double k))]
  | celsiusToFahrenheit => .string "CelsiusToFahrenheit"
  | fahrenheitToCelsius => .string "FahrenheitToCelsius"

def kinds : List (String × Option Conversion) :=
  [("Identity", some identity), ("Scale", none),
   ("CelsiusToFahrenheit", some celsiusToFahrenheit),
   ("FahrenheitToCelsius", some fahrenheitToCelsius)]

def readKind (name : String) : Reader (Option Conversion) :=
  match kinds.lookup name with
  | some kind => return kind
  | none => Reader.fail (.unknownVariant name (kinds.map (·.1)))

def readNamed (name : String) : Reader Conversion := do
  match ← readKind name with
  | some c => return c
  | none => Reader.fail (.wrongType .unitVariant "newtype variant")

def readKeyed (name : String) : Reader Conversion := do
  let kind ← readKind name
  Reader.colon
  match kind with
  | some c => do Reader.null; return c
  | none => return .scale (← Reader.numberAs "f64" (Representation.float64.ofNumber "f64"))

def reader (depth : Nat) : Reader Conversion := Reader.variant readNamed (fun _ => readKeyed) depth

end Conversion

end MetricUnits

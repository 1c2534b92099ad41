import MetricUnits.Protocol.Request
import MetricUnits.Schema

/-! Answers: what each method does, and the response to a line. -/
namespace MetricUnits
open Json

inductive Method
  | parse
  | convert
  | convertPrefix
  | listPrefixes
  | listMeasures
  deriving DecidableEq, Repr

namespace Method

def all : List Method := [parse, convert, convertPrefix, listPrefixes, listMeasures]

def name : Method → String
  | parse => "parse"
  | convert => "convert"
  | convertPrefix => "convert_prefix"
  | listPrefixes => "list_prefixes"
  | listMeasures => "list_measures"

def ofName? (s : String) : Option Method := all.find? (·.name == s)

end Method

namespace Answer

def validUnit (literal : String) : Except UnitError MetricUnit :=
  let u := MetricUnit.parse literal
  if u.isValid then .ok u else .error (.invalidUnit literal)

def parse (p : ParseParams) : Json :=
  let u := MetricUnit.parse p.literal
  .object [
    ("divisor", match u.divisor with
      | some d => d.toJson
      | none => .null),
    ("long", .string u.long),
    ("measure", u.measure.toJson),
    ("prefix", u.scale.toJson),
    ("short", .string u.short),
    ("valid", .bool u.isValid)]

def value (s : Sample) : Json := .ofNumber s.toNumber

def convert (p : ConvertParams) : Except UnitError Json := do
  let source ← validUnit p.source
  let target ← validUnit p.target
  let conversion ← source.conversionTo target
  return .object [("value", value (conversion.applySample p.value))]

def convertPrefix (p : RescaleParams) : Except UnitError Json := do
  let u ← validUnit p.literal
  let target := Prefix.lookup p.token
  if !target.isValid then .error (.invalidPrefix p.token)
  else
    let (conversion, v) := u.rescale target
    if !v.isValid then .error (.invalidUnit p.literal)
    else return .object [
      ("unit", .string v.short),
      ("value", value (conversion.applySample p.value))]

def listPrefixes : Json :=
  .array (Prefix.all.map fun p => .object [
    ("factor", .ofDouble p.factor),
    ("name", p.toJson),
    ("symbol", .string p.symbol)])

def listMeasures : Json :=
  .array (Measure.all.map fun m => .object [
    ("long", .string m.longName),
    ("name", m.toJson),
    ("symbol", .string m.symbol)])

def decoded {α : Type} (params : Except Fault α) : Except UnitError α :=
  params.mapError fun e => .invalidRequest e.message

def ofMethod (m : Method) (params : Json) : Except UnitError Json :=
  match m with
  | .parse => do return parse (← decoded (ParseParams.ofJson params))
  | .convert => do convert (← decoded (ConvertParams.ofJson params))
  | .convertPrefix => do convertPrefix (← decoded (RescaleParams.ofJson params))
  | .listPrefixes => .ok listPrefixes
  | .listMeasures => .ok listMeasures

def ofRequest (r : Request) : Except UnitError Json :=
  match Method.ofName? r.method with
  | some m => ofMethod m r.params
  | none => .error (.unknownMethod r.method)

end Answer

structure Response where
  id : Json
  outcome : Except ErrorReport Json

namespace Response

def ofRequest (r : Request) : Response :=
  ⟨r.id, (Answer.ofRequest r).mapError (·.report)⟩

def ofLine (line : String) : Response :=
  match Request.ofLine line with
  | .ok r => ofRequest r
  | .error e => ⟨.null, .error (UnitError.unreadable e.message).report⟩

def toJson (r : Response) : Json :=
  .object [("id", r.id), match r.outcome with
    | .ok result => ("result", result)
    | .error report => ("error", report.toJson)]

end Response
end MetricUnits

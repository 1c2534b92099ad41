import MetricUnits.Literal
import MetricUnits.Sample

/-! Conversions between units. They are transforms of numbers, all computed in double precision and cut
back to the representation of the number; units that do not convert are errors with a cause. -/
namespace MetricUnits

inductive UnitError
  | incompatible (source target : String)
  | invalidUnit (text : String)
  | invalidPrefix (token : String)
  | unreadable (detail : String)
  | invalidRequest (detail : String)
  | unknownMethod (name : String)
  deriving DecidableEq, Repr

structure ErrorReport where
  code : String
  message : String
  suggestion : Option String
  deriving DecidableEq, Repr

namespace UnitError

def code : UnitError → String
  | incompatible .. => "INCOMPATIBLE_MEASURES"
  | invalidUnit _ => "INVALID_UNIT"
  | invalidPrefix _ => "INVALID_PREFIX"
  | unreadable _ => "PARSE_ERROR"
  | invalidRequest _ => "INVALID_REQUEST"
  | unknownMethod _ => "UNKNOWN_METHOD"

def message : UnitError → String
  | incompatible source target =>
      "Incompatible measures: cannot convert " ++ source ++ " to " ++ target
  | invalidUnit text => "Invalid unit: " ++ text
  | invalidPrefix token => "Invalid prefix: " ++ token
  | unreadable detail => "Parse error: " ++ detail
  | invalidRequest detail => "Invalid request: " ++ detail
  | unknownMethod name => "Unknown method: " ++ name

def suggestion : UnitError → Option String
  | incompatible .. => some "Only prefixes of the same measure (or degC/degF) can be converted"
  | invalidUnit _ => some "Use a literal like \"MB/s\", \"GHz\" or \"%\""
  | invalidPrefix _ => some "Use a prefix like \"K\", \"M\", \"Gi\" or \"Milli\""
  | unknownMethod _ =>
      some "Known methods: parse, convert, convert_prefix, list_prefixes, list_measures"
  | unreadable _ | invalidRequest _ => none

def report (e : UnitError) : ErrorReport := ⟨e.code, e.message, e.suggestion⟩

end UnitError

inductive Conversion
  | identity
  | scale (factor : Double)
  | celsiusToFahrenheit
  | fahrenheitToCelsius
  deriving DecidableEq, Repr

namespace Conversion

def one : Double := .ofNat .double 1

def degreeRatio : Double := Decimal.toBinary .double false ⟨18, -1⟩

def degreeOffset : Double := .ofNat .double 32

def isIdentity : Conversion → Bool
  | identity => true
  | scale k => k.sameValue one
  | _ => false

def factor? : Conversion → Option Double
  | identity => some one
  | scale k => some k
  | _ => none

def applyDouble (c : Conversion) (x : Double) : Double :=
  match c with
  | identity => x
  | scale k => x * k
  | celsiusToFahrenheit => x * degreeRatio + degreeOffset
  | fahrenheitToCelsius => (x - degreeOffset) / degreeRatio

/- A conversion of a number in any representation. An identity does not go through doubles, so
that large integers keep all their digits. -/
def apply (c : Conversion) (r : Representation) (x : r.Value) : r.Value :=
  if c.isIdentity then x else r.through c.applyDouble x

def applySample (c : Conversion) (s : Sample) : Sample :=
  if c.isIdentity then s else s.map c.applyDouble

def toFunction (c : Conversion) : Sample → Sample := fun s => c.applySample s

theorem applySampleMk (c : Conversion) (t : SampleType) (x : t.representation.Value) :
    c.applySample ⟨t, x⟩ = ⟨t, c.apply t.representation x⟩ := by
  unfold applySample apply
  split <;> rfl

end Conversion

def Prefix.conversion (source target : Prefix) : Conversion :=
  if !source.isValid || !target.isValid || source = target then .identity
  else .scale (source.factor / target.factor)

namespace MetricUnit

def conversionTo (source target : MetricUnit) : Except UnitError Conversion :=
  if !source.isValid then .error (.invalidUnit source.fields)
  else if !target.isValid then .error (.invalidUnit target.fields)
  else match source.measure, target.measure with
    | .temperatureC, .temperatureF => .ok .celsiusToFahrenheit
    | .temperatureF, .temperatureC => .ok .fahrenheitToCelsius
    | m, n =>
        if m = n ∧ source.divisor = target.divisor then
          .ok (source.scale.conversion target.scale)
        else .error (.incompatible source.short target.short)

def rescale (u : MetricUnit) (p : Prefix) : Conversion × MetricUnit :=
  let again := parse u.short
  if u.isValid && again.isValid && p.isValid then (u.scale.conversion p, again.withScale p)
  else (.identity, .invalid)

end MetricUnit

structure Measurement where
  unit : MetricUnit
  sample : Sample
  deriving DecidableEq

namespace Measurement

def rescale (m : Measurement) (token : String) : Measurement :=
  let (c, u) := m.unit.rescale (Prefix.lookup token)
  ⟨u, c.applySample m.sample⟩

end Measurement

end MetricUnits

import MetricUnits.Json.Shape

/-! Requests: what is asked, with an id that the answer repeats, and the parameters of the methods. These
are taken from a JSON value: an object, or an array in the declared order. The fields of an object are
looked at in the byte order of their names, and missing ones are reported in the declared order. -/
namespace MetricUnits
open Json

structure Request where
  id : Json
  method : String
  params : Json
  deriving Repr

namespace Request

structure Partial where
  id : Option (Option Json) := none
  method : Option String := none
  params : Option Json := none

def readField (depth : Nat) (made : Partial) (key : String) : Reader Partial :=
  match key with
  | "id" => return { made with
      id := ← Reader.onceField key made.id (Reader.optional (Reader.value depth)) }
  | "method" => return { made with
      method := ← Reader.onceField key made.method Reader.string }
  | "params" => return { made with
      params := ← Reader.onceField key made.params (Reader.value depth) }
  | _ => do Reader.skipField; return made

def layouts : Reader.Layouts Request where
  sequence depth := do
    let id ← Reader.item? 0 (Reader.optional (Reader.value depth))
    let method ← Reader.item 1 "struct Request with 3 elements" Reader.string
    let params ← Reader.item? 2 (Reader.value depth)
    return ⟨id.join.getD .null, method, params.getD .null⟩
  map depth := do
    let made ← Reader.fields (readField depth) {}
    let method ← Reader.require "method" made.method
    return ⟨made.id.join.getD .null, method, made.params.getD .null⟩

def reader (depth : Nat) : Reader Request := Reader.record "struct Request" layouts depth

def ofLine (line : String) : Except Fault Request := readWhole (reader nestingLimit) line

end Request

namespace Params
variable {α : Type}

def text : Json → Except Fault String
  | .string s => .ok s
  | other => .error (.wrongType other.found "a string")

/- A number as a sample. Whole numbers stay whole, so that conversions truncate them. -/
def sample : Json → Except Fault Sample
  | .number (.integer n) =>
      if h : IntegerType.int64.Holds n then .ok (.int64 ⟨n, h⟩)
      else if h : IntegerType.uint64.Holds n then .ok (.uint64 ⟨n, h⟩)
      else .error (.noVariant "JsonSample")
  | .number (.double x) => .ok (.ofDouble x)
  | _ => .error (.noVariant "JsonSample")

def field? (key : String) (decode : Json → Except Fault α) (params : Json) :
    Except Fault (Option α) :=
  match params.field? key with
  | some value => (decode value).map some
  | none => .ok none

def require (key : String) : Option α → Except Fault α
  | some x => .ok x
  | none => .error (.missingField key)

def wrongLength (name : String) (declared found : Nat) : Fault :=
  if found < declared then
    .wrongLength found ("struct " ++ name ++ " with " ++ String.ofList (Nat.toDigits 10 declared)
      ++ (if declared = 1 then " element" else " elements"))
  else .wrongLength found "fewer elements in array"

def numberAndTexts (name : String) : List Json → Except Fault (Sample × String × String)
  | [] => .error (wrongLength name 3 0)
  | value :: items => do
      let value ← sample value
      match items with
      | [] => .error (wrongLength name 3 1)
      | first :: items =>
          let first ← text first
          match items with
          | [] => .error (wrongLength name 3 2)
          | second :: rest =>
              let second ← text second
              if rest.isEmpty then return (value, first, second)
              else .error (wrongLength name 3 (rest.length + 3))

def wrongType (name : String) (params : Json) : Fault :=
  .wrongType params.found ("struct " ++ name)

end Params

structure ParseParams where
  literal : String
  deriving DecidableEq, Repr

namespace ParseParams
open Params

def name : String := "ParseParams"

def ofItems : List Json → Except Fault ParseParams
  | [] => .error (wrongLength name 1 0)
  | literal :: rest => do
      let literal ← text literal
      if rest.isEmpty then return ⟨literal⟩ else .error (wrongLength name 1 (rest.length + 1))

def ofFields (params : Json) : Except Fault ParseParams := do
  let literal ← field? "unit" text params
  return ⟨← require "unit" literal⟩

def ofJson : Json → Except Fault ParseParams
  | .array items => ofItems items
  | .object fields => ofFields (.object fields)
  | other => .error (wrongType name other)

end ParseParams

structure ConvertParams where
  value : Sample
  source : String
  target : String
  deriving DecidableEq

namespace ConvertParams
open Params

def name : String := "ConvertParams"

def ofItems (items : List Json) : Except Fault ConvertParams := do
  let (value, first, second) ← numberAndTexts name items
  return ⟨value, first, second⟩

def ofFields (params : Json) : Except Fault ConvertParams := do
  let source ← field? "from" text params
  let target ← field? "to" text params
  let value ← field? "value" sample params
  return ⟨← require "value" value, ← require "from" source, ← require "to" target⟩

def ofJson : Json → Except Fault ConvertParams
  | .array items => ofItems items
  | .object fields => ofFields (.object fields)
  | other => .error (wrongType name other)

end ConvertParams

structure RescaleParams where
  value : Sample
  literal : String
  token : String
  deriving DecidableEq

namespace RescaleParams
open Params

def name : String := "ConvertPrefixParams"

def ofItems (items : List Json) : Except Fault RescaleParams := do
  let (value, first, second) ← numberAndTexts name items
  return ⟨value, first, second⟩

def ofFields (params : Json) : Except Fault RescaleParams := do
  let token ← field? "prefix" text params
  let literal ← field? "unit" text params
  let value ← field? "value" sample params
  return ⟨← require "value" value, ← require "unit" literal, ← require "prefix" token⟩

def ofJson : Json → Except Fault RescaleParams
  | .array items => ofItems items
  | .object fields => ofFields (.object fields)
  | other => .error (wrongType name other)

end RescaleParams

end MetricUnits

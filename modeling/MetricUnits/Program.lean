import MetricUnits.Protocol.Answer

/-! The program: a stream of lines in, a stream of responses out, as the environment configures it. -/
namespace MetricUnits

structure Config where
  logFilter : String
  pretty : Bool
  deriving DecidableEq, Repr

namespace Config

def logVariable : String := "CC_UNITS_LOG"

def prettyVariable : String := "CC_UNITS_PRETTY"

def initial : Config := ⟨"info", false⟩

def isOn (value : String) : Bool :=
  ["1", "true", "yes", "on"].any (·.toList == Text.lower (Text.trim value.toList))

def ofValues (log pretty : Option String) : Config where
  logFilter := (log.filter fun v => !(Text.trim v.toList).isEmpty).getD initial.logFilter
  pretty := (pretty.map isOn).getD initial.pretty

def ofEnvironment (lookup : String → Option String) : Config :=
  ofValues (lookup logVariable) (lookup prettyVariable)

end Config

namespace Program

/- The lines of a stream, without their ends, behind what was read of the first one so far (last
byte first). What is behind the last line end is a line only if there is something. -/
def linesFrom : (before : List UInt8) → List UInt8 → List (List UInt8)
  | [], [] => []
  | before, [] => [before.reverse]
  | before, b :: rest =>
      if b = 10 then before.reverse :: linesFrom [] rest else linesFrom (b :: before) rest

def lines (stream : List UInt8) : List (List UInt8) := linesFrom [] stream

def decode? (line : List UInt8) : Option String := String.fromUTF8? ⟨line.toArray⟩

inductive Reply
  | text (s : String)
  | nothing
  | stop
  deriving DecidableEq, Repr

def write (config : Config) (r : Response) : String :=
  (if config.pretty then r.toJson.pretty else r.toJson.compact) ++ "\n"

def reply (config : Config) (line : List UInt8) : Reply :=
  match decode? line with
  | none => .stop
  | some s =>
      let request := Text.trim s.toList
      if request.isEmpty then .nothing
      else .text (write config (Response.ofLine (String.ofList request)))

def replies (config : Config) : List (List UInt8) → List String
  | [] => []
  | line :: rest =>
      match reply config line with
      | .text s => s :: replies config rest
      | .nothing => replies config rest
      | .stop => []

structure Outcome where
  stdout : String
  exitCode : Nat
  deriving DecidableEq, Repr

def run (config : Config) (stdin : List UInt8) : Outcome :=
  ⟨String.join (replies config (lines stdin)), 0⟩

end Program

end MetricUnits

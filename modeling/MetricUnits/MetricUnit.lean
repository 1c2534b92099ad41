import MetricUnits.Binary.Decimal
import MetricUnits.Text

/-! Units of metrics: a prefix that scales, a measure, and for rates the measure it is divided by, all
with their names and symbols. -/
namespace MetricUnits

inductive Prefix
  | invalid | base
  | kilo | mega | giga | tera | peta | exa | zetta | yotta
  | milli | micro | nano
  | kibi | mebi | gibi | tebi | pebi | exbi | zebi | yobi
  deriving DecidableEq, Repr

namespace Prefix

def all : List Prefix :=
  [base, kilo, mega, giga, tera, peta, exa, zetta, yotta, milli, micro, nano,
   kibi, mebi, gibi, tebi, pebi, exbi, zebi, yobi]

def isValid (p : Prefix) : Bool := p != invalid

def name : Prefix → String
  | invalid => "Invalid" | base => "Base"
  | kilo => "Kilo" | mega => "Mega" | giga => "Giga" | tera => "Tera"
  | peta => "Peta" | exa => "Exa" | zetta => "Zetta" | yotta => "Yotta"
  | milli => "Milli" | micro => "Micro" | nano => "Nano"
  | kibi => "Kibi" | mebi => "Mebi" | gibi => "Gibi" | tebi => "Tebi"
  | pebi => "Pebi" | exbi => "Exbi" | zebi => "Zebi" | yobi => "Yobi"

def longName (p : Prefix) : String :=
  match p with
  | invalid | base => ""
  | p => p.name

def symbol : Prefix → String
  | invalid | base => ""
  | kilo => "K" | mega => "M" | giga => "G" | tera => "T"
  | peta => "P" | exa => "E" | zetta => "Z" | yotta => "Y"
  | milli => "m" | micro => "u" | nano => "n"
  | kibi => "Ki" | mebi => "Mi" | gibi => "Gi" | tebi => "Ti"
  | pebi => "Pi" | exbi => "Ei" | zebi => "Zi" | yobi => "Yi"

/- The symbols that are also read in lower case. The milli, micro and nano symbols are lower case
already, and `m` is never mega. -/
def readInLowerCase : List Prefix :=
  [kilo, giga, tera, peta, exa, zetta, yotta, kibi, gibi, tebi, pebi, exbi, zebi, yobi]

def hasSymbol (token : List Char) (p : Prefix) : Bool :=
  token == p.symbol.toList
    || (p ∈ readInLowerCase && token == p.symbol.toList.map Char.toLower)

def hasLongName (token : List Char) (p : Prefix) : Bool :=
  p != base && Text.sameName p.longName.toList token

def ofToken (token : List Char) : Prefix :=
  match all.find? (hasSymbol token) with
  | some p => p
  | none => (all.find? (hasLongName token)).getD invalid

def lookup (token : String) : Prefix := ofToken token.toList

def power? : Prefix → Option (Nat × Int)
  | invalid => none
  | base => some (10, 0)
  | kilo => some (10, 3) | mega => some (10, 6) | giga => some (10, 9) | tera => some (10, 12)
  | peta => some (10, 15) | exa => some (10, 18) | zetta => some (10, 21) | yotta => some (10, 24)
  | milli => some (10, -3) | micro => some (10, -6) | nano => some (10, -9)
  | kibi => some (2, 10) | mebi => some (2, 20) | gibi => some (2, 30) | tebi => some (2, 40)
  | pebi => some (2, 50) | exbi => some (2, 60) | zebi => some (2, 70) | yobi => some (2, 80)

def ofPower (b : Nat) : Int → Double
  | .ofNat e => .round .double false (Nat.pow b e * Format.double.one) 1
  | .negSucc e => .round .double false Format.double.one (Nat.pow b (e + 1))

def factor (p : Prefix) : Double :=
  match p.power? with
  | some (b, e) => ofPower b e
  | none => .zero false

theorem ofTokenSymbol : ∀ p ∈ all, ofToken p.symbol.toList = p := by decide

theorem memAllIff : ∀ p : Prefix, p ∈ all ↔ p.isValid := by
  intro p; cases p <;> decide

end Prefix

inductive Measure
  | invalid
  | bytes | flops | percentage | temperatureC | temperatureF | rotation | frequency | time
  | watt | joule | cycles | requests | packets | events
  deriving DecidableEq, Repr

namespace Measure

def all : List Measure :=
  [bytes, flops, percentage, temperatureC, temperatureF, rotation, frequency, time,
   watt, joule, cycles, requests, packets, events]

def isValid (m : Measure) : Bool := m != invalid

def name : Measure → String
  | invalid => "Invalid"
  | bytes => "Bytes" | flops => "Flops" | percentage => "Percentage"
  | temperatureC => "TemperatureC" | temperatureF => "TemperatureF"
  | rotation => "Rotation" | frequency => "Frequency" | time => "Time"
  | watt => "Watt" | joule => "Joule" | cycles => "Cycles" | requests => "Requests"
  | packets => "Packets" | events => "Events"

def longName : Measure → String
  | invalid => "Invalid"
  | bytes => "Bytes" | flops => "Flops" | percentage => "Percent"
  | temperatureC => "DegreeC" | temperatureF => "DegreeF"
  | rotation => "RPM" | frequency => "Hertz" | time => "Seconds"
  | watt => "Watts" | joule => "Joules" | cycles => "Cycles" | requests => "Requests"
  | packets => "Packets" | events => "Events"

def symbol : Measure → String
  | invalid => "invalid"
  | bytes => "B" | flops => "F" | percentage => "%"
  | temperatureC => "degC" | temperatureF => "degF"
  | rotation => "RPM" | frequency => "Hz" | time => "s"
  | watt => "W" | joule => "J" | cycles => "cyc" | requests => "requests"
  | packets => "packets" | events => "events"

def spellings : Measure → List String
  | invalid => []
  | bytes => ["b", "byte", "bytes"]
  | flops => ["f", "flop", "flops"]
  | percentage => ["%", "percent"]
  | temperatureC => ["degc", "°c", "degreec"]
  | temperatureF => ["degf", "°f", "degreef"]
  | rotation => ["rpm"]
  | frequency => ["hz", "hertz"]
  | time => ["s", "sec", "second", "seconds"]
  | watt => ["w", "watt", "watts"]
  | joule => ["j", "joule", "joules"]
  | cycles => ["cyc", "cycle", "cycles"]
  | requests => ["req", "request", "requests"]
  | packets => ["pkt", "packet", "packets"]
  | events => ["ev", "event", "events"]

def spelled (s : List Char) (m : Measure) : Bool := m.spellings.any (·.toList == s)

def ofToken (token : List Char) : Measure :=
  (all.find? (spelled (Text.lower token))).getD invalid

def lookup (token : String) : Measure := ofToken token.toList

def isCountLike : Measure → Bool
  | bytes | flops | packets | events | cycles | requests => true
  | _ => false

def isTemperature : Measure → Bool
  | temperatureC | temperatureF => true
  | _ => false

theorem ofTokenSymbol : ∀ m ∈ all, ofToken m.symbol.toList = m := by decide

theorem ofTokenLongName : ∀ m ∈ all, ofToken m.longName.toList = m := by decide

theorem memAllIff : ∀ m : Measure, m ∈ all ↔ m.isValid := by
  intro m; cases m <;> decide

end Measure

structure MetricUnit where
  scale : Prefix
  measure : Measure
  divisor : Option Measure
  deriving DecidableEq, Repr

namespace MetricUnit

def invalid : MetricUnit := ⟨.invalid, .invalid, none⟩

def ofMeasure (scale : Prefix) (measure : Measure) : MetricUnit := ⟨scale, measure, none⟩

def isValid (u : MetricUnit) : Bool := u.scale.isValid && u.measure.isValid

def withScale (u : MetricUnit) (p : Prefix) : MetricUnit := { u with scale := p }

def withDivisor (u : MetricUnit) (m : Measure) : MetricUnit :=
  { u with divisor := if m.isValid then some m else none }

def written (scaleName : Prefix → String) (measureName : Measure → String) (u : MetricUnit) :
    List Char :=
  (scaleName u.scale).toList ++ (measureName u.measure).toList ++
    match u.divisor with
    | some d => '/' :: (measureName d).toList
    | none => []

def short (u : MetricUnit) : String := String.ofList (u.written Prefix.symbol Measure.symbol)

def long (u : MetricUnit) : String := String.ofList (u.written Prefix.longName Measure.longName)

def fields (u : MetricUnit) : String :=
  let divisor := match u.divisor with
    | some d => "Some(" ++ d.name ++ ")"
    | none => "None"
  r"Unit { prefix: " ++ u.scale.name ++ ", measure: " ++ u.measure.name ++ ", divisor: "
    ++ divisor ++ r" }"

end MetricUnit

end MetricUnits

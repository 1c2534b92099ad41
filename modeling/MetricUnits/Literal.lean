import MetricUnits.MetricUnit

/-! Unit literals: the tokens of a text, and the unit that they mean. A text that means none is
the invalid unit, never an error. -/
namespace MetricUnits.Literal

structure Tokens where
  scale : List Char
  measure : List Char
  divisor : Option (List Char)
  deriving DecidableEq, Repr

def longNames : List (List Char) :=
  (Prefix.all.filter (· != .base)).map (·.longName.toList)

def letters : List Char := "kKmMgGtTpPeEzZyYun".toList

def takeSymbol : List Char → List Char × List Char
  | [] => ([], [])
  | c :: rest =>
      if c ∈ letters then
        match rest with
        | 'i' :: rest => ([c, 'i'], rest)
        | rest => ([c], rest)
      else ([], c :: rest)

def takeScale (s : List Char) : List Char × List Char :=
  match longNames.find? (Text.beginsWith · s) with
  | some name => s.splitAt name.length
  | none => takeSymbol s

def takeName? (s : List Char) : Option (List Char × List Char) :=
  match s.span (· != '/') with
  | ([], _) => none
  | (name, rest) => some (name, rest)

/- The tokens of a literal: prefix if there is one, measure, and a divisor behind a slash. What
was taken as prefix is never given back, even if nothing is left for the measure. -/
def tokenize (s : List Char) : Option Tokens := do
  let (scale, rest) := takeScale s
  let (measure, rest) ← takeName? rest
  match rest with
  | [] => some ⟨scale, measure, none⟩
  | _ :: rest =>
      let (divisor, rest) ← takeName? rest
      if rest.isEmpty then some ⟨scale, measure, some divisor⟩ else none

/- Prefix and measure of a literal. The letters of peta and exa may have been the first letter of
the measure: then prefix and measure are read together. -/
def resolve (scale measure : List Char) : Prefix × Measure :=
  let p := Prefix.ofToken scale
  let m := Measure.ofToken measure
  if m.isValid then (p, m)
  else if p = .peta ∨ p = .exa then
    let joined := Measure.ofToken (scale ++ measure)
    if joined.isValid then (.base, joined) else (p, m)
  else (p, m)

def meantPrefix (p : Prefix) (m : Measure) : Prefix :=
  if m = .percentage then .base
  else if p = .milli ∧ m.isCountLike then .mega
  else p

def Tokens.unit (t : Tokens) : MetricUnit :=
  let (p, m) := resolve t.scale t.measure
  let p := meantPrefix p m
  if p.isValid && m.isValid then
    ⟨p, m, (t.divisor.map Measure.ofToken).filter (·.isValid)⟩
  else .invalid

def unitOfChars (s : List Char) : MetricUnit :=
  match tokenize s with
  | some t => t.unit
  | none => .invalid

end MetricUnits.Literal

namespace MetricUnits.MetricUnit

def parse (literal : String) : MetricUnit := Literal.unitOfChars literal.toList

end MetricUnits.MetricUnit

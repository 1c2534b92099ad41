import MetricUnits.Binary.Basic

/-! Decimal numbers and the text of binary ones: reading a decimal into a format, the shortest decimal
that reads back as a given number, with the fewest digits and of those the nearest one, and its layout. -/
namespace MetricUnits

structure Decimal where
  coefficient : Nat
  exponent : Int
  deriving DecidableEq, Repr

def digitCount (n : Nat) : Nat := (Nat.toDigits 10 n).length

namespace Decimal

def integerDigits : Int → List Char
  | .ofNat n => Nat.toDigits 10 n
  | .negSucc n => '-' :: Nat.toDigits 10 (n + 1)

/- The binary number nearest to a decimal. Decimals far outside the range of the format are told
by their digit count, so that no power beyond that range is computed. -/
def toBinary (f : Format) (negative : Bool) (d : Decimal) : Binary f :=
  let top : Int := digitCount d.coefficient + d.exponent
  if d.coefficient = 0 ∨ top < -f.depth then .zero negative
  else if top > f.height + 1 then .infinite negative
  else if d.exponent < 0 then
    .round f negative (d.coefficient * f.one) (Nat.pow 10 (-d.exponent).toNat)
  else .round f negative (d.coefficient * Nat.pow 10 d.exponent.toNat * f.one) 1

def ofMagnitude (f : Format) (m : Nat) : Decimal := ⟨m * Nat.pow 5 f.depth, -f.depth⟩

end Decimal

inductive Tie
  | even
  | away
  deriving DecidableEq, Repr

namespace Decimal

def neighbours (digits : Nat) (d : Decimal) : Decimal × Decimal :=
  let cut := digitCount d.coefficient - digits
  let unit := Nat.pow 10 cut
  let low := d.coefficient / unit
  let high := if d.coefficient % unit = 0 then low else low + 1
  (⟨low, d.exponent + cut⟩, ⟨high, d.exponent + cut⟩)

def nearer (tie : Tie) (digits : Nat) (d : Decimal) : Decimal :=
  let (low, high) := neighbours digits d
  let unit := Nat.pow 10 (digitCount d.coefficient - digits)
  let excess := d.coefficient % unit
  if 2 * excess < unit then low
  else if 2 * excess > unit then high
  else match tie with
    | .away => high
    | .even => if low.coefficient % 2 = 0 then low else high

def readsBack? (f : Format) (tie : Tie) (m : Nat) (digits : Nat) : Option Decimal :=
  let exact := ofMagnitude f m
  let reads (d : Decimal) : Bool := (d.toBinary f false).steps == m
  let (low, high) := neighbours digits exact
  match reads low, reads high with
  | true, true => some (nearer tie digits exact)
  | true, false => some low
  | false, true => some high
  | false, false => none

def trim (coefficient : Nat) (exponent : Int) : Decimal :=
  if _h : coefficient ≠ 0 ∧ coefficient % 10 = 0 then trim (coefficient / 10) (exponent + 1)
  else ⟨coefficient, exponent⟩
termination_by coefficient

/- The shortest decimal of a magnitude. Precision many digits always suffice, being more than
the binary digits need. -/
def shortest (f : Format) (tie : Tie) (m : Nat) : Decimal :=
  let d := ((List.range f.precision).findSome? fun n => readsBack? f tie m (n + 1)).getD
    (ofMagnitude f m)
  trim d.coefficient d.exponent

end Decimal

structure NumberLayout where
  tie : Tie
  positional : Int → Bool
  pointZero : Bool

namespace NumberLayout

def jsonDouble : NumberLayout := ⟨.even, fun point => -5 < point && point ≤ 16, true⟩

def jsonSingle : NumberLayout := ⟨.even, fun point => -6 < point && point ≤ 13, true⟩

def plain : NumberLayout := ⟨.away, fun _ => true, false⟩

def inFull (layout : NumberLayout) (digits : List Char) (point : Int) : List Char :=
  if point ≤ 0 then '0' :: '.' :: (List.replicate (-point).toNat '0' ++ digits)
  else if digits.length ≤ point.toNat then
    digits ++ List.replicate (point.toNat - digits.length) '0'
      ++ (if layout.pointZero then ['.', '0'] else [])
  else digits.take point.toNat ++ '.' :: digits.drop point.toNat

def scientific (digits : List Char) (point : Int) : List Char :=
  let exponent := point - 1
  let fraction := match digits.drop 1 with
    | [] => []
    | rest => '.' :: rest
  digits.take 1 ++ fraction ++ 'e' :: (if exponent < 0 then '-' else '+')
    :: Nat.toDigits 10 exponent.natAbs

def magnitude (layout : NumberLayout) (f : Format) (m : Nat) : List Char :=
  if m = 0 then if layout.pointZero then ['0', '.', '0'] else ['0']
  else
    let d := Decimal.shortest f layout.tie m
    let digits := Nat.toDigits 10 d.coefficient
    let point : Int := digits.length + d.exponent
    if layout.positional point then layout.inFull digits point else scientific digits point

def finite? {f : Format} (layout : NumberLayout) : Binary f → Option (List Char)
  | .finite s m _ => some ((if s then ['-'] else []) ++ layout.magnitude f m)
  | _ => none

end NumberLayout

namespace Binary
variable {f : Format}

def plainText : Binary f → String
  | .nan => "NaN"
  | .infinite s => if s then "-inf" else "inf"
  | x => String.ofList ((NumberLayout.plain.finite? x).getD [])

end Binary

end MetricUnits

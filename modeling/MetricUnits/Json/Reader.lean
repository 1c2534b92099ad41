import MetricUnits.Json.Basic
import MetricUnits.Sample
import MetricUnits.Text

/-! Reading JSON text from left to right. A reader takes characters off the front of the text; the
first fault that is met ends it, and says what is wrong with the text or with the shape of a value. -/
namespace MetricUnits.Json

inductive Found
  | null
  | bool (b : Bool)
  | number (n : Number)
  | string (s : String)
  | sequence
  | map
  | unitVariant
  deriving DecidableEq, Repr

inductive Fault
  | endInValue | endInString | endInList | endInObject
  | valueExpected | identExpected | colonExpected
  | commaOrBracketExpected | commaOrBraceExpected
  | keyNotString | trailingComma | trailingCharacters
  | invalidNumber | numberOutOfRange
  | invalidEscape | hexEscapeEnds | loneSurrogate | controlCharacter
  | nestedTooDeep
  | wrongType (found : Found) (expected : String)
  | wrongInteger (n : Int) (expected : String)
  | wrongLength (n : Nat) (expected : String)
  | unknownVariant (name : String) (known : List String)
  | missingField (name : String)
  | duplicateField (name : String)
  | noVariant (type : String)
  deriving DecidableEq, Repr

def Found.text : Found → String
  | null => "null"
  | bool b => "boolean `" ++ (if b then "true" else "false") ++ "`"
  | number (.integer n) => "integer `" ++ String.ofList (numberChars (.integer n)) ++ "`"
  | number n => "floating point `" ++ String.ofList (numberChars n) ++ "`"
  | string s => "string " ++ Text.quoted s
  | sequence => "sequence"
  | map => "map"
  | unitVariant => "unit variant"

def found : Json → Found
  | .null => .null
  | .bool b => .bool b
  | .number n => .number n
  | .string s => .string s
  | .array _ => .sequence
  | .object _ => .map

/- What is wrong, without where: the position that readers of JSON append to it, as in
` at line 1 column 2`, is left out. -/
def Fault.message : Fault → String
  | endInValue => "EOF while parsing a value"
  | endInString => "EOF while parsing a string"
  | endInList => "EOF while parsing a list"
  | endInObject => "EOF while parsing an object"
  | valueExpected => "expected value"
  | identExpected => "expected ident"
  | colonExpected => "expected `:`"
  | commaOrBracketExpected => "expected `,` or `]`"
  | commaOrBraceExpected => r"expected `,` or `}`"
  | keyNotString => "key must be a string"
  | trailingComma => "trailing comma"
  | trailingCharacters => "trailing characters"
  | invalidNumber => "invalid number"
  | numberOutOfRange => "number out of range"
  | invalidEscape => "invalid escape"
  | hexEscapeEnds => "unexpected end of hex escape"
  | loneSurrogate => "lone leading surrogate in hex escape"
  | controlCharacter => "control character (\\u0000-\\u001F) found while parsing a string"
  | nestedTooDeep => "recursion limit exceeded"
  | wrongType found expected => "invalid type: " ++ found.text ++ ", expected " ++ expected
  | wrongInteger n expected =>
      "invalid value: " ++ (Found.number (.integer n)).text ++ ", expected " ++ expected
  | wrongLength n expected =>
      "invalid length " ++ String.ofList (Nat.toDigits 10 n) ++ ", expected " ++ expected
  | unknownVariant name known =>
      "unknown variant `" ++ name ++ "`, expected one of "
        ++ ", ".intercalate (known.map fun k => "`" ++ k ++ "`")
  | missingField name => "missing field `" ++ name ++ "`"
  | duplicateField name => "duplicate field `" ++ name ++ "`"
  | noVariant type => "data did not match any variant of untagged enum " ++ type

abbrev Reader := StateT (List Char) (Except Fault)

namespace Reader
variable {α σ : Type}

def fail (e : Fault) : Reader α := fun _ => .error e

def peek : Reader (Option Char) := fun s => .ok (s.head?, s)

def advance : Reader Unit := fun s => .ok ((), s.tail)

def take : Reader (Option Char) := fun s => .ok (s.head?, s.tail)

def isBlank (c : Char) : Bool := c = ' ' || c = '\n' || c = '\t' || c = '\r'

def peekToken : Reader (Option Char) := fun s =>
  let s := s.dropWhile isBlank
  .ok (s.head?, s)

def word : List Char → Reader Unit
  | [] => return ()
  | c :: rest => do
      match ← take with
      | none => fail .endInValue
      | some d => if d = c then word rest else fail .identExpected

def natOfDigits (digits : List Char) : Nat :=
  digits.foldl (fun n c => 10 * n + (c.toNat - '0'.toNat)) 0

/- The number that the parts of its text stand for: an integer if it has neither fraction nor
exponent, fits 64 bits with or without sign, and is not a negative zero. Numbers too large for a
finite double are refused. Decimals are rounded correctly, which not every reader of JSON does in the
last digit: where the id or the parameters of a request hold doubles, what is shown of reading them
back as they were written is shown of this rounding. -/
def numberOfParts? (negative : Bool) (whole : List Char) (fraction : Option (List Char))
    (exponent : Option Int) : Option Number :=
  let digits := fraction.getD []
  let x := Decimal.toBinary .double negative
    ⟨natOfDigits (whole ++ digits), exponent.getD 0 - digits.length⟩
  let real : Option Number := if x.isFinite then some (.double x) else none
  match fraction, exponent with
  | none, none =>
      let n := natOfDigits whole
      let signed : Int := if negative then -n else n
      let fits := IntegerType.int64.Holds signed ∨ IntegerType.uint64.Holds signed
      if fits ∧ ¬(negative ∧ n = 0) then some (.integer signed) else real
  | _, _ => real

def digits : Reader (List Char) := fun s => .ok (s.span Char.isDigit)

def wholeDigits : Reader (List Char) := do
  match ← take with
  | none => fail .endInValue
  | some c =>
      if c = '0' then
        match ← peek with
        | some d => if d.isDigit then fail .invalidNumber else return [c]
        | none => return [c]
      else if c.isDigit then return c :: (← digits)
      else fail .invalidNumber

def fractionDigits : Reader (Option (List Char)) := do
  if (← peek) = some '.' then
    advance
    let ds ← digits
    if ds.isEmpty then
      match ← peek with
      | none => fail .endInValue
      | some _ => fail .invalidNumber
    else return some ds
  else return none

def exponentSign : Reader Bool := do
  match ← peek with
  | some '-' => advance; return true
  | some '+' => advance; return false
  | _ => return false

def exponentPart : Reader (Option Int) := do
  let c ← peek
  if c = some 'e' ∨ c = some 'E' then
    advance
    let negative ← exponentSign
    match ← take with
    | none => fail .endInValue
    | some c =>
        if c.isDigit then
          let n : Int := natOfDigits (c :: (← digits))
          return some (if negative then -n else n)
        else fail .invalidNumber
  else return none

def minus : Reader Bool := do
  if (← peek) = some '-' then advance; return true
  else return false

def number : Reader Number := do
  let negative ← minus
  let whole ← wholeDigits
  let fraction ← fractionDigits
  let exponent ← exponentPart
  match numberOfParts? negative whole fraction exponent with
  | some n => return n
  | none => fail .numberOutOfRange

def hexDigit? (c : Char) : Option Nat :=
  if c.isDigit then some (c.toNat - '0'.toNat)
  else if 'a' ≤ c ∧ c ≤ 'f' then some (c.toNat - 'a'.toNat + 10)
  else if 'A' ≤ c ∧ c ≤ 'F' then some (c.toNat - 'A'.toNat + 10)
  else none

def hexValue? : List Char → Option Nat :=
  List.foldlM (fun n c => (hexDigit? c).map (16 * n + ·)) 0

/- The four digits of an escaped UTF-16 unit. Text that ends before four bytes ends the string. -/
def hexUnit : Reader Nat := fun s =>
  match s with
  | a :: b :: c :: d :: rest =>
      match hexValue? [a, b, c, d] with
      | some n => .ok (n, rest)
      | none => .error .invalidEscape
  | few =>
      if (String.ofList few).utf8ByteSize < 4 then .error .endInString else .error .invalidEscape

def withinEscape (c : Char) : Reader Unit := do
  match ← take with
  | none => fail .endInString
  | some d => if d = c then return () else fail .hexEscapeEnds

def unicodeEscape : Reader Char := do
  let n ← hexUnit
  if 0xdc00 ≤ n ∧ n ≤ 0xdfff then fail .loneSurrogate
  else if 0xd800 ≤ n ∧ n ≤ 0xdbff then
    withinEscape '\\'
    withinEscape 'u'
    let t ← hexUnit
    if 0xdc00 ≤ t ∧ t ≤ 0xdfff then
      return Char.ofNat (0x10000 + (n - 0xd800) * 0x400 + (t - 0xdc00))
    else fail .loneSurrogate
  else return Char.ofNat n

def escape : Reader Char := do
  match ← take with
  | none => fail .endInString
  | some c =>
      match c with
      | '\"' | '\\' | '/' => return c
      | 'b' => return '\x08'
      | 'f' => return '\x0c'
      | 'n' => return '\n'
      | 'r' => return '\r'
      | 't' => return '\t'
      | 'u' => unicodeEscape
      | _ => fail .invalidEscape

/- Characters up to the closing quote, behind those read before. Each step takes one off, so that
the text itself bounds their number. -/
def stringFrom : (bound : List Char) → (before : List Char) → Reader (List Char)
  | [], _ => fail .endInString
  | _ :: bound, before => do
      match ← take with
      | none => fail .endInString
      | some c =>
          if c = '\"' then return before.reverse
          else if c = '\\' then
            let c ← escape
            stringFrom bound (c :: before)
          else if c.toNat < 32 then fail .controlCharacter
          else stringFrom bound (c :: before)

def stringBody : Reader String := do
  let chars ← stringFrom (← get) []
  return String.ofList chars

def hasItem (first : Bool) : Reader Bool := do
  match ← peekToken with
  | none => fail .endInList
  | some c =>
      if c = ']' then return false
      else if first then return true
      else if c = ',' then
        advance
        match ← peekToken with
        | none => fail .endInValue
        | some d => if d = ']' then fail .trailingComma else return true
      else fail .commaOrBracketExpected

def itemsFrom (item : Reader α) : (bound : List Char) → (before : List α) → Reader (List α)
  | [], _ => fail .endInList
  | _ :: bound, before => do
      if ← hasItem before.isEmpty then
        let x ← item
        itemsFrom item bound (x :: before)
      else
        advance
        return before.reverse

def items (item : Reader α) : Reader (List α) := do
  itemsFrom item (← get) []

def nextKey? (first : Bool) : Reader (Option String) := do
  match ← peekToken with
  | none => fail .endInObject
  | some c =>
      if c = '}' then return none
      else if first then key c
      else if c = ',' then
        advance
        match ← peekToken with
        | none => fail .endInValue
        | some d => if d = '}' then fail .trailingComma else key d
      else fail .commaOrBraceExpected
where
  key (c : Char) : Reader (Option String) := do
    if c = '\"' then
      advance
      return some (← stringBody)
    else fail .keyNotString

def colon : Reader Unit := do
  match ← peekToken with
  | none => fail .endInObject
  | some c => if c = ':' then advance else fail .colonExpected

def fieldsFrom (field : σ → String → Reader σ) :
    (bound : List Char) → (first : Bool) → σ → Reader σ
  | [], _, _ => fail .endInObject
  | _ :: bound, first, made => do
      match ← nextKey? first with
      | some key =>
          let made ← field made key
          fieldsFrom field bound false made
      | none =>
          advance
          return made

def fields (field : σ → String → Reader σ) (start : σ) : Reader σ := do
  fieldsFrom field (← get) true start

def freeField (value : Reader Json) (made : List (String × Json)) (key : String) :
    Reader (List (String × Json)) := do
  colon
  let x ← value
  return insertField key x made

def valueWith (nested : Option (Reader Json)) : Reader Json := do
  match ← peekToken with
  | none => fail .endInValue
  | some c =>
      if c = 'n' then do advance; word "ull".toList; return .null
      else if c = 't' then do advance; word "rue".toList; return .bool true
      else if c = 'f' then do advance; word "alse".toList; return .bool false
      else if c = '-' || c.isDigit then return .number (← number)
      else if c = '\"' then do advance; return .string (← stringBody)
      else if c = '[' then
        match nested with
        | none => fail .nestedTooDeep
        | some value => do advance; return .array (← items value)
      else if c = '{' then
        match nested with
        | none => fail .nestedTooDeep
        | some value => do advance; return .object (← fields (freeField value) [])
      else fail .valueExpected

def value : (depth : Nat) → Reader Json
  | 0 => valueWith none
  | depth + 1 => valueWith (some (value depth))

end Reader

def nestingLimit : Nat := 127

def readWhole {α : Type} (reader : Reader α) (text : String) : Except Fault α :=
  match reader text.toList with
  | .error e => .error e
  | .ok (x, rest) => if rest.all Reader.isBlank then .ok x else .error .trailingCharacters

def read (text : String) : Except Fault Json := readWhole (Reader.value nestingLimit) text

end MetricUnits.Json

import MetricUnits.Binary.Decimal

/-! JSON values and their text: compact on one line, or pretty with one item or field a line. -/
namespace MetricUnits

namespace Json

inductive Number
  | integer (n : Int)
  | double (x : Double)
  | single (x : Single)
  deriving DecidableEq, Repr

end Json

inductive Json
  | null
  | bool (b : Bool)
  | number (n : Json.Number)
  | string (s : String)
  | array (items : List Json)
  | object (fields : List (String × Json))
  deriving Repr

namespace Json

instance : Inhabited Json := ⟨null⟩

def Number.isFinite : Number → Bool
  | .integer _ => true
  | .double x => x.isFinite
  | .single x => x.isFinite

def ofNumber (n : Number) : Json := if n.isFinite then .number n else .null

def ofDouble (x : Double) : Json := ofNumber (.double x)

def insertField (key : String) (value : Json) : List (String × Json) → List (String × Json)
  | [] => [(key, value)]
  | (k, v) :: rest =>
      if key < k then (key, value) :: (k, v) :: rest
      else if key = k then (key, value) :: rest
      else (k, v) :: insertField key value rest

def field? (key : String) : Json → Option Json
  | .object fields => fields.lookup key
  | _ => none

def twoHexDigits (n : Nat) : List Char := [Nat.digitChar (n / 16), Nat.digitChar (n % 16)]

def escapeChar (c : Char) : List Char :=
  match c with
  | '\"' => ['\\', '\"']
  | '\\' => ['\\', '\\']
  | '\x08' => ['\\', 'b']
  | '\x0c' => ['\\', 'f']
  | '\n' => ['\\', 'n']
  | '\r' => ['\\', 'r']
  | '\t' => ['\\', 't']
  | c => if c.toNat < 32 then '\\' :: 'u' :: '0' :: '0' :: twoHexDigits c.toNat else [c]

def stringChars (s : String) : List Char := '\"' :: (s.toList.flatMap escapeChar ++ ['\"'])

def numberChars : Number → List Char
  | .integer n => Decimal.integerDigits n
  | .double x => (NumberLayout.jsonDouble.finite? x).getD "null".toList
  | .single x => (NumberLayout.jsonSingle.finite? x).getD "null".toList

mutual

def compactChars : Json → List Char
  | .null => "null".toList
  | .bool true => "true".toList
  | .bool false => "false".toList
  | .number n => numberChars n
  | .string s => stringChars s
  | .array items => '[' :: (compactItems items ++ [']'])
  | .object fields => '{' :: (compactFields fields ++ ['}'])

def compactItems : List Json → List Char
  | [] => []
  | [x] => compactChars x
  | x :: y :: rest => compactChars x ++ ',' :: compactItems (y :: rest)

def compactFields : List (String × Json) → List Char
  | [] => []
  | [(k, x)] => stringChars k ++ ':' :: compactChars x
  | (k, x) :: y :: rest => stringChars k ++ ':' :: (compactChars x ++ ',' :: compactFields (y :: rest))

end

def newLine (level : Nat) : List Char := '\n' :: List.replicate (2 * level) ' '

mutual

def prettyChars (level : Nat) : Json → List Char
  | .null => "null".toList
  | .bool true => "true".toList
  | .bool false => "false".toList
  | .number n => numberChars n
  | .string s => stringChars s
  | .array [] => ['[', ']']
  | .array (x :: rest) =>
      '[' :: (newLine (level + 1) ++ prettyItems (level + 1) (x :: rest) ++ newLine level ++ [']'])
  | .object [] => ['{', '}']
  | .object (x :: rest) =>
      '{' :: (newLine (level + 1) ++ prettyFields (level + 1) (x :: rest) ++ newLine level
        ++ ['}'])

def prettyItems (level : Nat) : List Json → List Char
  | [] => []
  | [x] => prettyChars level x
  | x :: y :: rest => prettyChars level x ++ ',' :: (newLine level ++ prettyItems level (y :: rest))

def prettyFields (level : Nat) : List (String × Json) → List Char
  | [] => []
  | [(k, x)] => stringChars k ++ ':' :: ' ' :: prettyChars level x
  | (k, x) :: y :: rest =>
      stringChars k ++ ':' :: ' ' ::
        (prettyChars level x ++ ',' :: (newLine level ++ prettyFields level (y :: rest)))

end

def compact (j : Json) : String := String.ofList j.compactChars

def pretty (j : Json) : String := String.ofList (j.prettyChars 0)

end Json

end MetricUnits

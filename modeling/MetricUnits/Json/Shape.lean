import MetricUnits.Json.Reader

/-! Readers for values of an expected shape. A value of another shape is a fault that names what was
found, and what was expected. A value that nobody asked for is passed over, and read less strictly than
others: to any depth, with any numbers and surrogates; and a comma has to be followed by something. -/
namespace MetricUnits.Json.Reader

inductive Bracket
  | square
  | curly
  deriving DecidableEq, Repr

namespace Bracket

def closing : Bracket → Char
  | square => ']'
  | curly => '}'

def ended : Bracket → Fault
  | square => .endInList
  | curly => .endInObject

def commaExpected : Bracket → Fault
  | square => .commaOrBracketExpected
  | curly => .commaOrBraceExpected

end Bracket

def skipDigits : Reader Unit := do
  let ds ← digits
  if ds.isEmpty then fail .invalidNumber else return ()

def skipWhole : Reader Unit := do
  match ← take with
  | none => fail .invalidNumber
  | some c =>
      if c = '0' then
        if (← peek).any Char.isDigit then fail .invalidNumber else return ()
      else if c.isDigit then do let _ ← digits; return ()
      else fail .invalidNumber

def skipFraction : Reader Unit := do
  if (← peek) = some '.' then do advance; skipDigits
  else return ()

def skipExponent : Reader Unit := do
  let c ← peek
  if c = some 'e' ∨ c = some 'E' then do
    advance
    let _ ← exponentSign
    skipDigits
  else return ()

def skipNumber : Reader Unit := do
  let _ ← minus
  skipWhole
  skipFraction
  skipExponent

def skipEscape : Reader Unit := do
  match ← take with
  | none => fail .endInString
  | some c =>
      if c = 'u' then do let _ ← hexUnit; return ()
      else if c ∈ ['\"', '\\', '/', 'b', 'f', 'n', 'r', 't'] then return ()
      else fail .invalidEscape

def skipStringFrom : (bound : List Char) → Reader Unit
  | [] => fail .endInString
  | _ :: bound => do
      match ← take with
      | none => fail .endInString
      | some c =>
          if c = '\"' then return ()
          else if c = '\\' then do skipEscape; skipStringFrom bound
          else if c.toNat < 32 then fail .controlCharacter
          else skipStringFrom bound

def skipString : Reader Unit := do skipStringFrom (← get)

def skipKey : Reader Unit := do
  match ← peekToken with
  | none => fail .endInObject
  | some c =>
      if c = '\"' then do advance; skipString; colon
      else fail .keyNotString

def skipUpToValue (b : Bracket) : Reader Unit :=
  match b with
  | .square => return ()
  | .curly => skipKey

def skipScalar (c : Char) : Reader Unit :=
  if c = 'n' then do advance; word "ull".toList
  else if c = 't' then do advance; word "rue".toList
  else if c = 'f' then do advance; word "alse".toList
  else if c = '-' || c.isDigit then skipNumber
  else if c = '\"' then do advance; skipString
  else fail .valueExpected

def skipOpened (b : Bracket) (closed value : Reader Unit) : Reader Unit := do
  match ← peekToken with
  | none => fail b.ended
  | some c => if c = b.closing then do advance; closed else do skipUpToValue b; value

mutual

def skipValueFrom : (bound : List Char) → (outer : List Bracket) → Reader Unit
  | [], _ => fail .endInValue
  | _ :: bound, outer => do
      match ← peekToken with
      | none => fail .endInValue
      | some c =>
          if c = '[' then do
            advance
            skipOpened .square (skipRest bound outer) (skipValueFrom bound (.square :: outer))
          else if c = '{' then do
            advance
            skipOpened .curly (skipRest bound outer) (skipValueFrom bound (.curly :: outer))
          else do
            skipScalar c
            skipRest bound outer

def skipRest : (bound : List Char) → (outer : List Bracket) → Reader Unit
  | _, [] => return ()
  | [], b :: _ => fail b.ended
  | _ :: bound, b :: outer => do
      match ← peekToken with
      | none => fail b.ended
      | some c =>
          if c = ',' then do
            advance
            skipUpToValue b
            skipValueFrom bound (b :: outer)
          else if c = b.closing then do
            advance
            skipRest bound outer
          else fail b.commaExpected

end

def skipValue : Reader Unit := do skipValueFrom (← get) []

def skipField : Reader Unit := do
  colon
  skipValue

variable {α β : Type}

def wrongType (expected : String) : Reader α := do
  match ← peek with
  | none => fail .valueExpected
  | some c =>
      if c = '[' then fail (.wrongType .sequence expected)
      else if c = '{' then fail (.wrongType .map expected)
      else
        let simple ← valueWith none
        fail (.wrongType simple.found expected)

def expecting (expected : String) (begins : Char → Bool) (reader : Reader α) : Reader α := do
  match ← peekToken with
  | none => fail .endInValue
  | some c => if begins c then reader else wrongType expected

def string : Reader String := expecting "a string" (· == '\"') do advance; stringBody

def null : Reader Unit := expecting "unit" (· == 'n') do advance; word "ull".toList

def optional (reader : Reader α) : Reader (Option α) := do
  match ← peekToken with
  | some 'n' => do advance; word "ull".toList; return none
  | _ => return some (← reader)

def numberAs (expected : String) (take : Number → Except Fault α) : Reader α :=
  expecting expected (fun c => c == '-' || c.isDigit) do
    match take (← number) with
    | .ok x => return x
    | .error e => fail e

structure Layouts (α : Type) where
  sequence : (depth : Nat) → Reader α
  map : (depth : Nat) → Reader α

def closeSequence : Reader Unit := do
  match ← peekToken with
  | none => fail .endInList
  | some c =>
      if c = ']' then advance
      else if c = ',' then
        advance
        match ← peekToken with
        | some ']' => fail .trailingComma
        | _ => fail .trailingCharacters
      else fail .trailingCharacters

def record (expected : String) (layouts : Layouts α) : (depth : Nat) → Reader α
  | 0 => expecting expected (fun c => c == '[' || c == '{') (fail .nestedTooDeep)
  | depth + 1 =>
      expecting expected (fun c => c == '[' || c == '{') do
        if (← take) = some '[' then
          let x ← layouts.sequence depth
          closeSequence
          return x
        else layouts.map depth

def item? (index : Nat) (reader : Reader α) : Reader (Option α) := do
  if ← hasItem (index == 0) then return some (← reader) else return none

def item (index : Nat) (expected : String) (reader : Reader α) : Reader α := do
  match ← item? index reader with
  | some x => return x
  | none => fail (.wrongLength index expected)

def onceField (key : String) (before : Option α) (reader : Reader α) : Reader (Option α) := do
  if before.isSome then fail (.duplicateField key)
  else
    colon
    return some (← reader)

def require (key : String) : Option α → Reader α
  | some x => return x
  | none => fail (.missingField key)

def variantKey : Reader String := do
  match ← peekToken with
  | none => fail .endInObject
  | some c =>
      if c = '\"' then do advance; stringBody
      else if c = '}' then fail .valueExpected
      else fail .keyNotString

def variant (named : String → Reader α) (keyed : (depth : Nat) → String → Reader α) :
    (depth : Nat) → Reader α := fun depth => do
  match ← peekToken with
  | none => fail .endInValue
  | some c =>
      if c = '\"' then do
        advance
        named (← stringBody)
      else if c = '{' then
        match depth with
        | 0 => fail .nestedTooDeep
        | depth + 1 => do
            advance
            let name ← variantKey
            let x ← keyed depth name
            match ← peekToken with
            | none => fail .endInObject
            | some c => if c = '}' then do advance; return x else fail .valueExpected
      else fail .valueExpected

def variantOfName (known : List (String × α)) (name : String) : Reader α :=
  match known.lookup name with
  | some x => return x
  | none => fail (.unknownVariant name (known.map (·.1)))

def plainVariant (known : List (String × α)) (depth : Nat) : Reader α :=
  variant (variantOfName known) (fun _ name => do
    let x ← variantOfName known name
    colon
    null
    return x) depth

def namedVariant (known : List (String × α)) : Reader α := do
  variantOfName known (← expecting "variant identifier" (· == '\"') do advance; stringBody)

end MetricUnits.Json.Reader

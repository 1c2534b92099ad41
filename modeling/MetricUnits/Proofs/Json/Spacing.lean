import MetricUnits.Json.Reader

/-! One writer for both kinds of text. They differ only in the white space around items and fields, which
is taken as a parameter here, so that what readers do with it is shown once. -/
namespace MetricUnits.Json

/-- White space of a kind of text: before each item and closing bracket, by the level of nesting, and
behind colons. -/
structure Spacing where
  gap : Nat → List Char
  behindColon : List Char
  gapBlank : ∀ level, ∀ c ∈ gap level, Reader.isBlank c
  colonBlank : ∀ c ∈ behindColon, Reader.isBlank c

namespace Spacing

def none : Spacing where
  gap _ := []
  behindColon := []
  gapBlank _ := by simp
  colonBlank := by simp

def lines : Spacing where
  gap := newLine
  behindColon := [' ']
  gapBlank level c mem := by
    obtain rfl | mem := List.mem_cons.mp mem
    · rfl
    · rw [List.eq_of_mem_replicate mem]
      rfl
  colonBlank := by simp [Reader.isBlank]

@[simp] theorem noneGap (level : Nat) : none.gap level = [] := rfl

@[simp] theorem noneColon : none.behindColon = [] := rfl

@[simp] theorem linesGap (level : Nat) : lines.gap level = newLine level := rfl

@[simp] theorem linesColon : lines.behindColon = [' '] := rfl

def field (spacing : Spacing) (key : String) (x : List Char) : List Char :=
  stringChars key ++ ':' :: (spacing.behindColon ++ x)

def comma (first : Bool) : List Char := if first then [] else [',']

def closing (spacing : Spacing) (level : Nat) (nothing : Bool) : List Char :=
  if nothing then [] else spacing.gap level

theorem closingBlank (spacing : Spacing) (level : Nat) (nothing : Bool) :
    ∀ c ∈ spacing.closing level nothing, Reader.isBlank c := by
  cases nothing with
  | true => simp [closing]
  | false => exact spacing.gapBlank level

mutual

def chars (spacing : Spacing) (level : Nat) : Json → List Char
  | .null => "null".toList
  | .bool true => "true".toList
  | .bool false => "false".toList
  | .number n => numberChars n
  | .string s => stringChars s
  | .array items =>
      '[' :: (spacing.items (level + 1) true items ++ (spacing.closing level items.isEmpty ++ [']']))
  | .object fields =>
      '{' :: (spacing.fields (level + 1) true fields ++
        (spacing.closing level fields.isEmpty ++ ['}']))

def items (spacing : Spacing) (level : Nat) (first : Bool) : List Json → List Char
  | [] => []
  | x :: rest =>
      comma first ++ (spacing.gap level ++ (spacing.chars level x ++ spacing.items level false rest))

def fields (spacing : Spacing) (level : Nat) (first : Bool) : List (String × Json) → List Char
  | [] => []
  | (k, x) :: rest =>
      comma first ++ (spacing.gap level ++ (spacing.field k (spacing.chars level x) ++
        spacing.fields level false rest))

end

mutual

theorem compactSpacing (level : Nat) : ∀ j : Json, compactChars j = none.chars level j
  | .null => rfl
  | .bool true => rfl
  | .bool false => rfl
  | .number _ => rfl
  | .string _ => rfl
  | .array items => by
    have inner := compactItemsSpacing (level + 1) true items
    simp [compactChars, chars, closing, ← inner, comma]
  | .object fields => by
    have inner := compactFieldsSpacing (level + 1) true fields
    simp [compactChars, chars, closing, ← inner, comma]

theorem compactItemsSpacing (level : Nat) (first : Bool) : ∀ items : List Json,
    (if items.isEmpty then [] else comma first) ++ compactItems items = none.items level first items
  | [] => rfl
  | [x] => by simp [compactItems, items, compactSpacing level x]
  | x :: y :: rest => by
    have others := compactItemsSpacing level false (y :: rest)
    rw [items, ← others]
    simp [compactItems, compactSpacing level x, comma]

theorem compactFieldsSpacing (level : Nat) (first : Bool) : ∀ fields : List (String × Json),
    (if fields.isEmpty then [] else comma first) ++ compactFields fields = none.fields level first fields
  | [] => rfl
  | [(k, x)] => by simp [compactFields, fields, compactSpacing level x, field]
  | (k, x) :: y :: rest => by
    have others := compactFieldsSpacing level false (y :: rest)
    rw [fields, ← others]
    simp [compactFields, compactSpacing level x, field, comma]

end

mutual

theorem prettySpacing (level : Nat) : ∀ j : Json, prettyChars level j = lines.chars level j
  | .null => rfl
  | .bool true => rfl
  | .bool false => rfl
  | .number _ => rfl
  | .string _ => rfl
  | .array [] => rfl
  | .array (x :: rest) => by
    have inner := prettyItemsSpacing (level + 1) true (x :: rest)
    simp [prettyChars, chars, closing, ← inner, comma]
  | .object [] => rfl
  | .object (x :: rest) => by
    have inner := prettyFieldsSpacing (level + 1) true (x :: rest)
    simp [prettyChars, chars, closing, ← inner, comma]

theorem prettyItemsSpacing (level : Nat) (first : Bool) : ∀ items : List Json,
    (if items.isEmpty then [] else comma first ++ newLine level) ++ prettyItems level items =
      lines.items level first items
  | [] => rfl
  | [x] => by simp [prettyItems, items, prettySpacing level x]
  | x :: y :: rest => by
    have others := prettyItemsSpacing level false (y :: rest)
    rw [items, ← others]
    simp [prettyItems, prettySpacing level x, comma]

theorem prettyFieldsSpacing (level : Nat) (first : Bool) : ∀ fields : List (String × Json),
    (if fields.isEmpty then [] else comma first ++ newLine level) ++ prettyFields level fields =
      lines.fields level first fields
  | [] => rfl
  | [(k, x)] => by simp [prettyFields, fields, prettySpacing level x, field]
  | (k, x) :: y :: rest => by
    have others := prettyFieldsSpacing level false (y :: rest)
    rw [fields, ← others]
    simp [prettyFields, prettySpacing level x, field, comma]

end

end Spacing
end MetricUnits.Json

import MetricUnits.Proofs.Json.Printable
import MetricUnits.Proofs.Json.Spacing

/-! White space outside strings. Whoever goes through a JSON text knows at each character if it is part
of a string; with the blanks outside of strings taken away, each text of a value is its compact text. -/
namespace MetricUnits.Json

inductive Place
  | outside | inside | escaped
  deriving DecidableEq, Repr

namespace Place

def next : Place → Char → Place
  | outside, c => if c = '\"' then inside else outside
  | inside, c => if c = '\"' then outside else if c = '\\' then escaped else inside
  | escaped, _ => inside

def after (place : Place) (s : List Char) : Place := s.foldl next place

def keeps : Place → Char → Bool
  | outside, c => !Text.isBlank c
  | _, _ => true

end Place

def condensedFrom (place : Place) : List Char → List Char
  | [] => []
  | c :: rest =>
      if place.keeps c then c :: condensedFrom (place.next c) rest
      else condensedFrom (place.next c) rest

def condensed (s : List Char) : List Char := condensedFrom .outside s

theorem condensedAppend (place : Place) (s t : List Char) :
    condensedFrom place (s ++ t) = condensedFrom place s ++ condensedFrom (place.after s) t := by
  induction s generalizing place with
  | nil => rfl
  | cons c s ih =>
    have behind : place.after (c :: s) = (place.next c).after s := rfl
    simp only [List.cons_append, condensedFrom, ih, behind]
    split <;> rfl

theorem afterAppend (place : Place) (s t : List Char) :
    place.after (s ++ t) = (place.after s).after t := List.foldl_append

def isDark (c : Char) : Bool := !Text.isBlank c && c != '\"'

structure Condenses (s t : List Char) : Prop where
  text : condensed s = t
  ends : Place.outside.after s = .outside

namespace Condenses
variable {s s' t t' : List Char}

theorem nil : Condenses [] [] := ⟨rfl, rfl⟩

theorem append (left : Condenses s s') (right : Condenses t t') : Condenses (s ++ t) (s' ++ t') where
  text := by
    have first := left.text
    have second := right.text
    unfold condensed at first second ⊢
    rw [condensedAppend, left.ends, first, second]
  ends := by rw [afterAppend, left.ends, right.ends]

theorem dark {c : Char} (shown : isDark c = true) : Condenses [c] [c] := by
  simp only [isDark, Bool.and_eq_true, Bool.not_eq_true', bne_iff_ne] at shown
  exact ⟨by simp [condensed, condensedFrom, Place.keeps, shown.1], if_neg shown.2⟩

theorem cons {c : Char} (shown : isDark c = true) (rest : Condenses s t) :
    Condenses (c :: s) (c :: t) := append (dark shown) rest

theorem allDark (shown : s.all isDark = true) : Condenses s s := by
  induction s with
  | nil => exact nil
  | cons c s ih =>
    rw [List.all_cons, Bool.and_eq_true] at shown
    exact cons shown.1 (ih shown.2)

theorem blank {c : Char} (white : Text.isBlank c = true) : Condenses [c] [] where
  text := by simp [condensed, condensedFrom, Place.keeps, white]
  ends := by
    have other : c ≠ '\"' := by
      rintro rfl
      exact absurd white (by decide)
    exact if_neg other

theorem allBlank (white : ∀ c ∈ s, Text.isBlank c = true) : Condenses s [] := by
  induction s with
  | nil => exact nil
  | cons c s ih =>
    obtain ⟨first, rest⟩ := List.forall_mem_cons.mp white
    exact append (blank first) (ih rest)

end Condenses

theorem numberCondenses (n : Number) : Condenses (numberChars n) (numberChars n) := by
  have alphabet : numberAlphabet.all isDark = true := by decide
  rw [List.all_eq_true] at alphabet
  exact .allDark (List.all_eq_true.mpr fun c mem => alphabet c (numberCharacters n mem))

theorem escapeInside (c : Char) :
    condensedFrom .inside (escapeChar c) = escapeChar c ∧ Place.inside.after (escapeChar c) = .inside := by
  have byNumber : ∀ n < 32, let s := '\\' :: 'u' :: '0' :: '0' :: twoHexDigits n
      condensedFrom .inside s = s ∧ Place.inside.after s = .inside := by decide
  unfold escapeChar
  split
  case h_8 quote slash _ _ _ _ _ =>
    split
    · rename_i control
      exact byNumber _ control
    · exact ⟨rfl, (if_neg quote).trans (if_neg slash)⟩
  all_goals decide

theorem bodyInside (s : List Char) :
    condensedFrom .inside (s.flatMap escapeChar) = s.flatMap escapeChar ∧
    Place.inside.after (s.flatMap escapeChar) = .inside := by
  induction s with
  | nil => exact ⟨rfl, rfl⟩
  | cons c s ih =>
    obtain ⟨kept, still⟩ := escapeInside c
    rw [List.flatMap_cons, condensedAppend, afterAppend, kept, still, ih.1, ih.2]
    exact ⟨rfl, rfl⟩

theorem stringCondenses (s : String) : Condenses (stringChars s) (stringChars s) := by
  obtain ⟨kept, still⟩ := bodyInside s.toList
  have opened (t : List Char) : condensed ('\"' :: t) = '\"' :: condensedFrom .inside t := rfl
  refine ⟨?_, ?_⟩
  · rw [stringChars, opened, condensedAppend, kept, still]
    rfl
  · show Place.inside.after (s.toList.flatMap escapeChar ++ ['\"']) = .outside
    rw [afterAppend, still]
    rfl

theorem blankText {c : Char} (white : Reader.isBlank c = true) : Text.isBlank c = true := by
  simp only [Reader.isBlank, Bool.or_eq_true, decide_eq_true_eq] at white
  obtain ((rfl | rfl) | rfl) | rfl := white <;> decide

namespace Spacing
variable (spacing : Spacing)

theorem gapCondenses (level : Nat) : Condenses (spacing.gap level) (none.gap level) :=
  .allBlank fun c mem => blankText (spacing.gapBlank level c mem)

theorem colonCondenses : Condenses spacing.behindColon none.behindColon :=
  .allBlank fun c mem => blankText (spacing.colonBlank c mem)

theorem closingCondenses (level : Nat) (nothing : Bool) :
    Condenses (spacing.closing level nothing) (none.closing level nothing) := by
  cases nothing with
  | true => exact .nil
  | false => exact spacing.gapCondenses level

theorem commaCondenses (first : Bool) : Condenses (comma first) (comma first) := by
  cases first with
  | true => exact .nil
  | false => exact .dark (by decide)

mutual

theorem charsCondense (level : Nat) : ∀ j : Json, Condenses (spacing.chars level j) (none.chars level j)
  | .null => Condenses.allDark (s := "null".toList) (by decide)
  | .bool true => Condenses.allDark (s := "true".toList) (by decide)
  | .bool false => Condenses.allDark (s := "false".toList) (by decide)
  | .number n => numberCondenses n
  | .string s => stringCondenses s
  | .array items =>
    .cons (by decide) (.append (itemsCondense (level + 1) true items)
      (.append (spacing.closingCondenses level items.isEmpty) (.dark (by decide))))
  | .object fields =>
    .cons (by decide) (.append (fieldsCondense (level + 1) true fields)
      (.append (spacing.closingCondenses level fields.isEmpty) (.dark (by decide))))

theorem itemsCondense (level : Nat) (first : Bool) : ∀ items : List Json,
    Condenses (spacing.items level first items) (none.items level first items)
  | [] => .nil
  | x :: rest => .append (commaCondenses first) (.append (spacing.gapCondenses level)
      (.append (charsCondense level x) (itemsCondense level false rest)))

theorem fieldsCondense (level : Nat) (first : Bool) : ∀ fields : List (String × Json),
    Condenses (spacing.fields level first fields) (none.fields level first fields)
  | [] => .nil
  | (k, x) :: rest => .append (commaCondenses first) (.append (spacing.gapCondenses level)
      (.append (.append (stringCondenses k) (.cons (by decide)
        (.append spacing.colonCondenses (charsCondense level x)))) (fieldsCondense level false rest)))

end

end Spacing

theorem prettyCondenses (j : Json) : Condenses (prettyChars 0 j) (compactChars j) := by
  rw [Spacing.prettySpacing, Spacing.compactSpacing 0]
  exact Spacing.lines.charsCondense 0 j

theorem compactCondenses (j : Json) : Condenses (compactChars j) (compactChars j) := by
  rw [Spacing.compactSpacing 0]
  exact Spacing.none.charsCondense 0 j

end MetricUnits.Json

import Mathlib
import MetricUnits.Proofs.Literal.Vocabulary

/-! Letter case in literals. Texts that differ only in the case of ASCII letters have their tokens at the same
places, and the tokens name the same things. The one exception is the symbol of a prefix, which counts as it
is written, and which is within the first two characters. -/
namespace MetricUnits

namespace Text

def Alike (s t : List Char) : Prop := s.map Char.toLower = t.map Char.toLower

instance (s t : List Char) : Decidable (Alike s t) := inferInstanceAs (Decidable (_ = _))

theorem notUpper {c : Char} (other : c.isAlpha = false) : ¬ c.isUpper := by
  rw [Char.isAlpha, Bool.or_eq_false_iff] at other
  exact Bool.eq_false_iff.mp other.1

theorem lowerOther {d : Char} (other : d.isAlpha = false) (c : Char) : c.toLower = d ↔ c = d := by
  constructor
  · rintro rfl
    rw [Char.isAlpha_toLower_eq_isAlpha] at other
    exact (Char.toLower_eq_of_not_isUpper (notUpper other)).symm
  · rintro rfl
    exact Char.toLower_eq_of_not_isUpper (notUpper other)

theorem slashLower : (fun c : Char => c != '/') ∘ Char.toLower = fun c => c != '/' := by
  funext c
  have slash : c.toLower = '/' ↔ c = '/' := lowerOther (by decide) c
  exact Bool.eq_iff_iff.mpr (by simpa using not_congr slash)

namespace Alike
variable {s t u v : List Char}

theorem same {β : Type} {f g : List Char → β} (factors : ∀ s, f s = g (s.map Char.toLower))
    (alike : Alike s t) : f s = f t := by
  rw [factors, factors, alike]

theorem length (alike : Alike s t) : s.length = t.length :=
  alike.same fun _ => (List.length_map _).symm

theorem append (left : Alike s t) (right : Alike u v) : Alike (s ++ u) (t ++ v) := by
  rw [Alike, List.map_append, List.map_append, left, right]

theorem behind (same : s = t) (alike : Alike (s ++ u) (t ++ v)) : Alike u v := by
  rw [Alike, List.map_append, List.map_append, same] at alike
  exact List.append_cancel_left alike

theorem take (alike : Alike s t) (n : Nat) : Alike (s.take n) (t.take n) :=
  alike.same (f := fun s => (s.take n).map Char.toLower) fun _ => List.map_take

theorem drop (alike : Alike s t) (n : Nat) : Alike (s.drop n) (t.drop n) :=
  alike.same (f := fun s => (s.drop n).map Char.toLower) fun _ => List.map_drop

theorem lower (alike : Alike s t) : Text.lower s = Text.lower t := by
  refine alike.same (g := List.map fun c => if c = '\u212a' then 'k' else c) fun s => ?_
  rw [List.map_map]
  refine List.map_congr_left fun c _ => ?_
  exact if_congr (lowerOther (by decide) c).symm rfl rfl

end Alike
end Text

namespace Measure

theorem ofTokenAlike {s t : List Char} (alike : Text.Alike s t) : ofToken s = ofToken t := by
  rw [ofToken, ofToken, alike.lower]

end Measure

namespace Prefix
open Literal

theorem ofTokenAlike {s t : List Char} (named : s.map Char.toLower ∈ scaleNames)
    (alike : Text.Alike s t) : ofToken s = ofToken t := by
  have long : ∀ token ∈ symbols, token.map Char.toLower ∉ scaleNames := by decide +kernel
  have byName {token : List Char} (named : token.map Char.toLower ∈ scaleNames) :
      ofToken token = (all.find? (hasLongName token)).getD invalid := by
    have none : all.find? (hasSymbol token) = none := by
      refine List.find?_eq_none.mpr fun p mem symbol => ?_
      exact long token ((hasSymbolIff token).mp ⟨p, mem, symbol⟩) named
    rw [ofToken, none]
  have same : hasLongName s = hasLongName t := by
    funext p
    rw [hasLongName, hasLongName, Text.sameName, Text.sameName, alike]
  rw [byName named, byName (alike ▸ named), same]

end Prefix

namespace Text.Alike
open Literal
variable {s t : List Char}

theorem slashes (alike : Alike s t) : s.count '/' = t.count '/' := by
  refine alike.same (g := List.count '/') fun s => ?_
  rw [List.count_eq_countP, List.count_eq_countP, List.countP_map]
  refine List.countP_congr fun c _ => ?_
  have slash : c.toLower = '/' ↔ c = '/' := lowerOther (by decide) c
  simpa using slash.symm

theorem untilSlash (alike : Alike s t) : Alike (beforeSlash s) (beforeSlash t) := by
  refine alike.same (f := fun s => (beforeSlash s).map Char.toLower) (g := beforeSlash) fun s => ?_
  rw [beforeSlash, beforeSlash, List.takeWhile_map, slashLower]

theorem tail (alike : Alike s t) : Option.Rel Alike s.tail? t.tail? := by
  cases s with
  | nil =>
    cases t with
    | nil => exact .none
    | cons d t => exact absurd alike (List.cons_ne_nil _ _).symm
  | cons c s =>
    cases t with
    | nil => exact absurd alike (List.cons_ne_nil _ _)
    | cons d t => exact .some (List.cons.inj alike).2

theorem afterSlash (alike : Alike s t) : Option.Rel Alike (behindSlash? s) (behindSlash? t) := by
  refine tail (alike.same (f := fun s => (s.dropWhile (· != '/')).map Char.toLower)
    (g := List.dropWhile (· != '/')) fun s => ?_)
  rw [List.dropWhile_map, slashLower]

theorem nothing {a b : Option (List Char)} (alike : Option.Rel Alike a b) : a = some [] ↔ b = some [] := by
  cases alike with
  | none => exact Iff.rfl
  | some alike => simp [← List.length_eq_zero_iff, alike.length]

end Text.Alike

theorem mapAlike {α β : Type} {R : α → α → Prop} (f : α → β) (respects : ∀ x y, R x y → f x = f y)
    {a b : Option α} (alike : Option.Rel R a b) : a.map f = b.map f := by
  cases alike with
  | none => rfl
  | some holds => exact congrArg some (respects _ _ holds)

namespace Literal
open Text
variable {s t : List Char}

def leadingSymbol (s : List Char) : List Char := (takeSymbol s).1

theorem symbolBeforeSlash (s : List Char) : leadingSymbol (beforeSlash s) = leadingSymbol s := by
  by_cases slash : '/' ∈ s
  · obtain ⟨first, d, rfl, free⟩ := List.eq_append_cons_of_mem slash
    rw [(beforeSlashAppend free d).1, leadingSymbol, leadingSymbol, takeSymbolBeforeSlash]
  · rw [(beforeSlashFree slash).1]

theorem symbolOfTwo (s : List Char) : leadingSymbol (s.take 2) = leadingSymbol s := by
  cases s with
  | nil => rfl
  | cons c s =>
    cases s with
    | nil => rfl
    | cons d s =>
      by_cases letter : c ∈ letters
      · by_cases i : d = 'i'
        · simp [leadingSymbol, takeSymbol, letter, i]
        · simp [leadingSymbol, takeSymbol, letter, i]
      · simp [leadingSymbol, takeSymbol, letter]

structure ScaleAlike (a b : List Char × List Char) : Prop where
  scale : Alike a.1 b.1
  named : Prefix.ofToken a.1 = Prefix.ofToken b.1
  rest : Alike a.2 b.2

theorem takeScaleAlike (alike : Alike s t) (same : leadingSymbol s = leadingSymbol t) :
    ScaleAlike (takeScale s) (takeScale t) := by
  by_cases named : ∃ name ∈ scaleNames, Begins name s
  · obtain ⟨name, known, begins⟩ := named
    have also : Begins name t := by rwa [Begins, ← alike]
    have word : (s.take name.length).map Char.toLower ∈ scaleNames := by
      rw [List.map_take, ← List.prefix_iff_eq_take.mp begins]
      exact known
    rw [takeScaleNamed known begins, takeScaleNamed known also]
    exact ⟨alike.take _, Prefix.ofTokenAlike word (alike.take _), alike.drop _⟩
  · have free : NoName s := fun name known begins => named ⟨name, known, begins⟩
    have also : NoName t := fun name known begins => free name known (by rwa [Begins, alike])
    rw [takeScaleUnnamed free, takeScaleUnnamed also]
    have scale : (takeSymbol s).1 = (takeSymbol t).1 := same
    refine ⟨congrArg (List.map Char.toLower) scale, congrArg Prefix.ofToken scale, ?_⟩
    rw [← takeSymbolAppend s, ← takeSymbolAppend t] at alike
    exact alike.behind scale

structure Tokens.Alike (a b : Tokens) : Prop where
  parts : ScaleAlike (a.scale, a.measure) (b.scale, b.measure)
  divisor : Option.Rel Text.Alike a.divisor b.divisor

theorem tokenizeAlike (alike : Alike s t) (same : leadingSymbol s = leadingSymbol t) :
    Option.Rel Tokens.Alike (tokenize s) (tokenize t) := by
  have left := alike.untilSlash
  have parts : ScaleAlike (takeScale (beforeSlash s)) (takeScale (beforeSlash t)) :=
    takeScaleAlike left (by rw [symbolBeforeSlash, symbolBeforeSlash, same])
  have both : (s.count '/' ≤ 1 ∧ behindSlash? s ≠ some [] ∧
        (takeScale (beforeSlash s)).1.length < (beforeSlash s).length) ↔
      (t.count '/' ≤ 1 ∧ behindSlash? t ≠ some [] ∧
        (takeScale (beforeSlash t)).1.length < (beforeSlash t).length) := by
    rw [alike.slashes, Ne, Text.Alike.nothing alike.afterSlash, parts.scale.length, left.length]
  rw [tokenizeClosed, tokenizeClosed]
  by_cases found : s.count '/' ≤ 1 ∧ behindSlash? s ≠ some [] ∧
      (takeScale (beforeSlash s)).1.length < (beforeSlash s).length
  · rw [if_pos found, if_pos (both.mp found)]
    exact .some ⟨parts, alike.afterSlash⟩
  · rw [if_neg found, if_neg fun also => found (both.mpr also)]
    exact .none

theorem Tokens.Alike.unit {a b : Tokens} (alike : Tokens.Alike a b) : a.unit = b.unit := by
  obtain ⟨⟨scale, named, measure⟩, divisor⟩ := alike
  have resolved : resolve a.scale a.measure = resolve b.scale b.measure := by
    rw [resolve, resolve, named, Measure.ofTokenAlike measure, Measure.ofTokenAlike (scale.append measure)]
  have divided : a.divisor.map Measure.ofToken = b.divisor.map Measure.ofToken :=
    mapAlike Measure.ofToken (fun _ _ => Measure.ofTokenAlike) divisor
  rw [Tokens.unit, Tokens.unit, resolved, divided]

theorem unitAlike (alike : Alike s t) (same : leadingSymbol s = leadingSymbol t) : unitOfChars s = unitOfChars t := by
  have units : (tokenize s).map Tokens.unit = (tokenize t).map Tokens.unit :=
    mapAlike Tokens.unit (fun _ _ => Tokens.Alike.unit) (tokenizeAlike alike same)
  have closed (s : List Char) : unitOfChars s = ((tokenize s).map Tokens.unit).getD .invalid := by
    unfold unitOfChars
    cases tokenize s <;> rfl
  rw [closed, closed, units]

end Literal

namespace MetricUnit
open Literal

theorem caseBehindTwo (s t : String) (first : s.toList.take 2 = t.toList.take 2)
    (rest : Text.Alike (s.toList.drop 2) (t.toList.drop 2)) : parse s = parse t := by
  have alike : Text.Alike s.toList t.toList := by
    rw [← List.take_append_drop 2 s.toList, ← List.take_append_drop 2 t.toList, first]
    exact Text.Alike.append rfl rest
  refine unitAlike alike ?_
  rw [← symbolOfTwo s.toList, first, symbolOfTwo]

/- Two characters are the bound: an `i` behind the letter is a binary prefix, and an `I` is not. -/
example : parse "KiB" ≠ parse "KIB" := by decide +kernel

theorem packetsBehindTwo :
    let s := "PACKETs/SEC"
    let t := "PAckets/Sec"
    (s.toList.take 2 = t.toList.take 2 ∧ Text.Alike (s.toList.drop 2) (t.toList.drop 2)) ∧
    parse s = parse t ∧ parse t = ⟨.base, .packets, some .time⟩ := by
  intro s t
  have first : s.toList.take 2 = t.toList.take 2 := by decide
  have rest : Text.Alike (s.toList.drop 2) (t.toList.drop 2) := by decide
  exact ⟨⟨first, rest⟩, caseBehindTwo s t first rest, by decide +kernel⟩

end MetricUnit
end MetricUnits

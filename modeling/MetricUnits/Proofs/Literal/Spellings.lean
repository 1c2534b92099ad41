import Mathlib.Data.List.Infix
import MetricUnits.Proofs.Literal.Vocabulary

/-! Literals put together from a prefix and a measure. However each of them is spelled, they are told apart
again: no long name and no letter reaches into the measure, except for the letters that are given back. -/
namespace MetricUnits

namespace Text

theorem lowerAppend (s t : List Char) : lower (s ++ t) = lower s ++ lower t := List.map_append

theorem lowerLength (s : List Char) : (lower s).length = s.length := List.length_map ..

theorem lowerHead (s : List Char) : (lower s).head? = s.head?.map lowerChar := List.head?_map

end Text

namespace Literal
variable {a b : List Char}

theorem beginsLower {name s : List Char} (known : name ∈ scaleNames) (begins : Begins name s) :
    name <+: Text.lower s := by
  have kelvin : ∀ name ∈ scaleNames, '\u212a' ∉ name := by decide
  rw [Begins, List.prefix_iff_eq_take, ← List.map_take] at begins
  have same : (s.take name.length).map Char.toLower = Text.lower (s.take name.length) := by
    refine List.map_congr_left fun c mem => (if_neg ?_).symm
    rintro rfl
    refine kelvin name known ?_
    rw [begins]
    exact List.mem_map.mpr ⟨_, mem, by decide⟩
  rw [List.prefix_iff_eq_take, Text.lower, ← List.map_take]
  exact begins.trans same

theorem namesOffWords : ∀ k ≤ 2, ∀ name ∈ scaleNames, ∀ w ∈ Measure.words, ¬ name.drop k <+: w := by
  decide +kernel

theorem noNameInside (symbol : a ∈ Prefix.symbols) (word : Text.lower b ∈ Measure.words) :
    NoName (a ++ b) := by
  have short : ∀ a ∈ Prefix.symbols, a.length ≤ 2 := by decide
  intro name known begins
  have within := List.IsPrefix.drop (beginsLower known begins) a.length
  rw [Text.lowerAppend, ← Text.lowerLength a, List.drop_left, Text.lowerLength] at within
  exact namesOffWords a.length (short a symbol) name known _ word within

theorem wordNoI (word : Text.lower b ∈ Measure.words) : b.head? ≠ some 'i' := by
  have noI : ∀ w ∈ Measure.words, w.head? ≠ some 'i' := by decide
  intro head
  refine noI _ word ?_
  rw [Text.lowerHead, head]
  rfl

theorem wordNoSlash (word : Text.lower b ∈ Measure.words) : '/' ∉ b := by
  have free : ∀ w ∈ Measure.words, '/' ∉ w := by decide
  exact fun slash => free _ word (List.mem_map.mpr ⟨'/', slash, by decide⟩)

theorem wordNonempty (word : Text.lower b ∈ Measure.words) : b ≠ [] := by
  have some : [] ∉ Measure.words := by decide
  rintro rfl
  exact some word

theorem letterOfWord {c : Char} (letter : c ∈ letters) (word : Text.lower (c :: b) ∈ Measure.words) :
    (Prefix.ofToken [c] = .peta ∨ Prefix.ofToken [c] = .exa) ∧ b ≠ [] ∧ b.head? ≠ some 'i' ∧
    (Measure.ofToken b).isValid = false := by
  have facts : ∀ a ∈ letters.map ([·]), ∀ w ∈ Measure.words, Text.lower a <+: w →
      (Prefix.ofToken a = .peta ∨ Prefix.ofToken a = .exa) ∧ w.tail ≠ [] ∧
      w.tail.head? ≠ some 'i' ∧ w.tail ∉ Measure.words := by decide +kernel
  obtain ⟨early, some, noI, noWord⟩ :=
    facts [c] (List.mem_map_of_mem letter) _ word (List.prefix_append [Text.lowerChar c] _)
  refine ⟨early, ?_, fun head => noI ?_, ?_⟩
  · rintro rfl
    exact some rfl
  · show (Text.lower b).head? = _
    rw [Text.lowerHead, head]
    rfl
  · rw [← Bool.not_eq_true, Measure.validIff]
    exact noWord

theorem symbolForms : ∀ a ∈ Prefix.symbols,
    a = [] ∨ a ∈ letters.map ([·]) ∨ a ∈ letters.map ([·, 'i']) := by decide

theorem scaleTaken (scale : (Prefix.ofToken a).isValid) (word : Text.lower b ∈ Measure.words)
    (written : a ≠ []) : ScalePart (a ++ b) a := by
  obtain symbol | name := (Prefix.validIff a).mp scale
  · have free := noNameInside symbol word
    obtain empty | single | double := symbolForms a symbol
    · contradiction
    · obtain ⟨c, letter, rfl⟩ := List.mem_map.mp single
      exact .letter free letter (wordNoI word)
    · obtain ⟨c, letter, rfl⟩ := List.mem_map.mp double
      exact .binary free letter
  · have begins : Begins (a.map Char.toLower) (a ++ b) := by
      rw [Begins, List.map_append]
      exact List.prefix_append _ _
    have part := ScalePart.name name begins
    rwa [List.length_map, List.take_left] at part

theorem takeSpelled (part : ScalePart (a ++ b) a) : takeScale (a ++ b) = (a, b) := by
  rw [takeScaleEq part, List.drop_left]

theorem noSlashBefore (scale : (Prefix.ofToken a).isValid) : '/' ∉ a := by
  have symbols : ∀ a ∈ Prefix.symbols, '/' ∉ a := by decide
  have names : ∀ name ∈ scaleNames, '/' ∉ name := by decide
  obtain symbol | name := (Prefix.validIff a).mp scale
  · exact symbols a symbol
  · exact fun slash => names _ name (List.mem_map.mpr ⟨'/', slash, by decide⟩)

theorem unitTaken {s p m : List Char} (free : '/' ∉ s) (taken : takeScale s = (p, m)) (some : m ≠ []) :
    unitOfChars s = Tokens.unit ⟨p, m, none⟩ := by
  rw [unitOfChars, tokenizePlain free, taken]
  simp [some]

theorem unitResolved {s m : List Char} {p : Prefix} {q : Measure} (resolved : resolve s m = (p, q))
    (scale : p.isValid) (measure : q.isValid) :
    Tokens.unit ⟨s, m, none⟩ = .ofMeasure (meantPrefix p q) q := by
  have valid := meantPrefixValid scale q
  simp [Tokens.unit, resolved, valid, measure, MetricUnit.ofMeasure]

theorem resolveFound {s m : List Char} (measure : (Measure.ofToken m).isValid) :
    resolve s m = (Prefix.ofToken s, Measure.ofToken m) := by
  simp [resolve, measure]

theorem resolveJoined {s m : List Char} (early : Prefix.ofToken s = .peta ∨ Prefix.ofToken s = .exa)
    (other : (Measure.ofToken m).isValid = false) (joined : (Measure.ofToken (s ++ m)).isValid) :
    resolve s m = (.base, Measure.ofToken (s ++ m)) := by
  simp [resolve, other, early, joined]

theorem unitOfWord (word : (Measure.ofToken b).isValid) :
    unitOfChars b = .ofMeasure (meantPrefix .base (Measure.ofToken b)) (Measure.ofToken b) := by
  have spelled := (Measure.validIff b).mp word
  have free : NoName b := noNameInside (a := []) (by decide) spelled
  have single := wordNoSlash spelled
  by_cases other : ∀ c ∈ b.head?, c ∉ letters
  · have taken : takeScale b = ([], b) := takeSpelled (a := []) (.none free other)
    rw [unitTaken single taken (wordNonempty spelled)]
    exact unitResolved (resolveFound word) rfl word
  · cases b with
    | nil => simp at other
    | cons c rest =>
      have letter : c ∈ letters := by simpa using other
      obtain ⟨early, some, noI, noWord⟩ := letterOfWord letter spelled
      have taken : takeScale (c :: rest) = ([c], rest) := takeSpelled (a := [c]) (.letter free letter noI)
      rw [unitTaken single taken some]
      exact unitResolved (resolveJoined early noWord word) rfl word

theorem unitSpelled (scale : (Prefix.ofToken a).isValid) (word : (Measure.ofToken b).isValid) :
    unitOfChars (a ++ b) =
      .ofMeasure (meantPrefix (Prefix.ofToken a) (Measure.ofToken b)) (Measure.ofToken b) := by
  have spelled := (Measure.validIff b).mp word
  by_cases written : a = []
  · subst written
    exact unitOfWord word
  · have free : '/' ∉ a ++ b := by simp [noSlashBefore scale, wordNoSlash spelled]
    rw [unitTaken free (takeSpelled (scaleTaken scale spelled written)) (wordNonempty spelled)]
    exact unitResolved (resolveFound word) scale word

end Literal

namespace MetricUnit
open Literal

def named (p : Prefix) (m : Measure) (divisor : Option Measure) : MetricUnit where
  scale := if m = .percentage then .base else if p = .milli ∧ m.isCountLike then .mega else p
  measure := m
  divisor := divisor

inductive Spelled : String → MetricUnit → Prop
  | plain {a b : String} (scale : (Prefix.lookup a).isValid) (measure : (Measure.lookup b).isValid) :
      Spelled (a ++ b) (named (Prefix.lookup a) (Measure.lookup b) none)
  | rate {a b d : String} (scale : (Prefix.lookup a).isValid) (measure : (Measure.lookup b).isValid)
      (name : d ≠ "") (single : '/' ∉ d.toList) :
      Spelled (a ++ b ++ "/" ++ d) (named (Prefix.lookup a) (Measure.lookup b)
        (if (Measure.lookup d).isValid then some (Measure.lookup d) else none))

theorem spelledParses {s : String} {u : MetricUnit} (spelled : Spelled s u) : parse s = u := by
  cases spelled with
  | plain scale measure =>
    rw [parse, String.toList_append]
    exact unitSpelled scale measure
  | @rate a b d scale measure name single =>
    have word := (Measure.validIff b.toList).mp measure
    have free : '/' ∉ a.toList ++ b.toList := by simp [noSlashBefore scale, wordNoSlash word]
    have some : d.toList ≠ [] := by simpa using name
    have text : (a ++ b ++ "/" ++ d).toList = (a.toList ++ b.toList) ++ '/' :: d.toList := by simp
    have valid : (ofMeasure (meantPrefix (Prefix.ofToken a.toList) (Measure.ofToken b.toList))
        (Measure.ofToken b.toList)).isValid := by
      have meant := meantPrefixValid scale (Measure.ofToken b.toList)
      simp only [isValid, ofMeasure, Bool.and_eq_true]
      exact ⟨meant, measure⟩
    rw [parse, text, unitRate free some single, unitSpelled scale measure, if_pos valid]
    rfl

theorem spellingsUnderstood :
    (∀ s u, Spelled s u → parse s = u) ∧ ∀ s u v, Spelled s u → Spelled s v → u = v := by
  refine ⟨fun s u => spelledParses, fun s u v left right => ?_⟩
  rw [← spelledParses left, spelledParses right]

/- The letter of the packets is no peta, and the kelvin sign in them is a `k`. -/
theorem packetsSpelled :
    let s := "" ++ "Pac\u212aET" ++ "/" ++ "SEC"
    let u : MetricUnit := ⟨.base, .packets, some .time⟩
    Spelled s u ∧ parse s = u ∧ ∀ v, Spelled s v → u = v := by
  intro s u
  have spelled : Spelled s u := .rate (a := "") (b := "Pac\u212aET") (d := "SEC") (by decide +kernel)
    (by decide +kernel) (by decide) (by decide)
  exact ⟨spelled, spellingsUnderstood.1 s u spelled, fun v => spellingsUnderstood.2 s u v spelled⟩

end MetricUnit
end MetricUnits

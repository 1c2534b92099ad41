import Mathlib.Data.List.Find
import Mathlib.Data.List.TakeDrop
import MetricUnits.Literal

/-! Tokens of literals. What is taken as a prefix never reaches over a slash, so the text before it is read
as if it stood alone. The prefix part is told by names and letters alone: a name comes before a letter, and
a letter takes an `i` behind it. Each text has exactly one such part, the one that is taken off it. -/
namespace MetricUnits

namespace Text

theorem sameNameSlash {name s : List Char} (same : sameName name s = true) (slash : '/' ∈ s) :
    '/' ∈ name.map Char.toLower := by
  have lower : name.map Char.toLower = s.map Char.toLower := by simpa [sameName] using same
  rw [lower]
  exact List.mem_map.mpr ⟨'/', slash, by decide⟩

theorem beginsWithBeforeSlash {name : List Char} (free : '/' ∉ name.map Char.toLower)
    (s rest : List Char) : beginsWith name (s ++ '/' :: rest) = beginsWith name s := by
  unfold beginsWith
  by_cases short : name.length ≤ s.length
  · rw [List.take_append_of_le_length short]
    simp [short, Nat.le_trans short (Nat.le_add_right _ _)]
  · obtain ⟨extra, length⟩ : ∃ k, name.length = s.length + (k + 1) :=
      ⟨name.length - s.length - 1, by omega⟩
    have slash : '/' ∈ (s ++ '/' :: rest).take name.length := by
      rw [length, List.take_length_add_append]
      simp
    have other : sameName name ((s ++ '/' :: rest).take name.length) = false := by
      refine Bool.eq_false_iff.mpr ?_
      intro same
      exact free (sameNameSlash same slash)
    simp [other, short]

theorem beginsWithLength {name s : List Char} (starts : beginsWith name s = true) :
    name.length ≤ s.length := by
  simp only [beginsWith, Bool.and_eq_true, decide_eq_true_eq] at starts
  exact starts.1

end Text

namespace Literal
open Text

theorem longNameFree : ∀ name ∈ longNames, '/' ∉ name.map Char.toLower := by decide +kernel

theorem slashNoLetter : '/' ∉ letters := by decide

theorem longNameBeforeSlash (s rest : List Char) :
    longNames.find? (beginsWith · (s ++ '/' :: rest)) = longNames.find? (beginsWith · s) :=
  List.find?_congr fun name mem => beginsWithBeforeSlash (longNameFree name mem) s rest

theorem takeSymbolAppend (s : List Char) : (takeSymbol s).1 ++ (takeSymbol s).2 = s := by
  unfold takeSymbol
  split
  · rfl
  · split
    · split <;> simp
    · rfl

theorem takeSymbolBeforeSlash (s rest : List Char) :
    takeSymbol (s ++ '/' :: rest) = ((takeSymbol s).1, (takeSymbol s).2 ++ '/' :: rest) := by
  cases s with
  | nil => simp [takeSymbol, slashNoLetter]
  | cons c s =>
    by_cases letter : c ∈ letters
    · cases s with
      | nil => simp [takeSymbol, letter]
      | cons d s =>
        by_cases i : d = 'i'
        · simp [takeSymbol, letter, i]
        · simp [takeSymbol, letter, i]
    · simp [takeSymbol, letter]

theorem takeScaleAppend (s : List Char) : (takeScale s).1 ++ (takeScale s).2 = s := by
  unfold takeScale
  split
  · simp [List.splitAt_eq]
  · exact takeSymbolAppend s

theorem takeScaleBeforeSlash (s rest : List Char) :
    takeScale (s ++ '/' :: rest) = ((takeScale s).1, (takeScale s).2 ++ '/' :: rest) := by
  unfold takeScale
  rw [longNameBeforeSlash]
  cases found : longNames.find? (beginsWith · s) with
  | none => exact takeSymbolBeforeSlash s rest
  | some name =>
    have starts : beginsWith name s = true := List.find?_some (p := (beginsWith · s)) found
    have length := beginsWithLength starts
    simp only [List.splitAt_eq]
    rw [List.take_append_of_le_length length, List.drop_append_of_le_length length]

theorem takeScaleFree {s : List Char} (free : '/' ∉ s) : '/' ∉ (takeScale s).2 := by
  intro slash
  rw [← takeScaleAppend s] at free
  exact free (List.mem_append_right _ slash)

theorem noSlash {s : List Char} (free : '/' ∉ s) : ∀ c ∈ s, (c != '/') = true := by
  intro c mem
  simpa using fun same : c = '/' => free (same ▸ mem)

theorem takeNameStop {name rest : List Char} (free : '/' ∉ name) (stop : ∀ c ∈ rest.head?, c = '/') :
    takeName? (name ++ rest) = if name = [] then none else some (name, rest) := by
  have keep := noSlash free
  have span : (name ++ rest).span (· != '/') = (name, rest) := by
    rw [List.span_eq_takeWhile_dropWhile, List.takeWhile_append_of_pos keep,
      List.dropWhile_append_of_pos keep]
    cases rest with
    | nil => simp
    | cons c rest => simp [stop c rfl]
  rw [takeName?, span]
  cases name <;> simp

theorem takeNameAll {name : List Char} (free : '/' ∉ name) :
    takeName? name = if name = [] then none else some (name, []) := by
  simpa using @takeNameStop name [] free (by simp)

theorem takeNameBeforeSlash {name : List Char} (free : '/' ∉ name) (rest : List Char) :
    takeName? (name ++ '/' :: rest) = if name = [] then none else some (name, '/' :: rest) :=
  takeNameStop free (by simp)

theorem tokenizePlain {s : List Char} (free : '/' ∉ s) :
    tokenize s =
      if (takeScale s).2 = [] then none else some ⟨(takeScale s).1, (takeScale s).2, none⟩ := by
  simp only [tokenize, takeNameAll (takeScaleFree free)]
  split <;> simp

theorem tokenizeSlash {s : List Char} (free : '/' ∉ s) (d : List Char) :
    tokenize (s ++ '/' :: d) =
      if (takeScale s).2 = [] ∨ d = [] ∨ '/' ∈ d then none
      else some ⟨(takeScale s).1, (takeScale s).2, some d⟩ := by
  simp only [tokenize, takeScaleBeforeSlash, takeNameBeforeSlash (takeScaleFree free)]
  by_cases nothing : (takeScale s).2 = []
  · simp [nothing]
  · by_cases slash : '/' ∈ d
    · obtain ⟨name, rest, rfl, single⟩ := List.eq_append_cons_of_mem slash
      have taken := takeNameBeforeSlash single rest
      by_cases empty : name = []
      · rw [if_pos empty] at taken
        simp [nothing, taken]
      · rw [if_neg empty] at taken
        simp [nothing, taken]
    · by_cases empty : d = []
      · simp [nothing, empty, takeNameAll]
      · simp [nothing, empty, slash, takeNameAll slash]

theorem tokenizeRate {s d : List Char} (free : '/' ∉ s) (name : d ≠ []) (single : '/' ∉ d) :
    tokenize (s ++ '/' :: d) = (tokenize s).map fun t => { t with divisor := some d } := by
  rw [tokenizeSlash free, tokenizePlain free]
  by_cases nothing : (takeScale s).2 = []
  · simp [nothing]
  · simp [nothing, name, single]

def scaleNames : List (List Char) :=
  ["kilo", "mega", "giga", "tera", "peta", "exa", "zetta", "yotta", "milli", "micro", "nano",
   "kibi", "mebi", "gibi", "tebi", "pebi", "exbi", "zebi", "yobi"].map String.toList

def Begins (name s : List Char) : Prop := name <+: s.map Char.toLower

def NoName (s : List Char) : Prop := ∀ name ∈ scaleNames, ¬ Begins name s

instance (name s : List Char) : Decidable (Begins name s) := inferInstanceAs (Decidable (_ <+: _))

instance (s : List Char) : Decidable (NoName s) := inferInstanceAs (Decidable (∀ _ ∈ _, _))

inductive ScalePart : (s scale : List Char) → Prop
  | name {name s : List Char} (known : name ∈ scaleNames) (begins : Begins name s) :
      ScalePart s (s.take name.length)
  | binary {c : Char} {rest : List Char} (free : NoName (c :: 'i' :: rest)) (letter : c ∈ letters) :
      ScalePart (c :: 'i' :: rest) [c, 'i']
  | letter {c : Char} {rest : List Char} (free : NoName (c :: rest)) (letter : c ∈ letters)
      (other : rest.head? ≠ some 'i') : ScalePart (c :: rest) [c]
  | none {s : List Char} (free : NoName s) (other : ∀ c ∈ s.head?, c ∉ letters) : ScalePart s []

theorem longNamesLower : longNames.map (·.map Char.toLower) = scaleNames := by decide

theorem namesApart : ∀ a ∈ scaleNames, ∀ b ∈ scaleNames, a <+: b → a = b := by decide

theorem nameUnique {a b s : List Char} (left : a ∈ scaleNames) (right : b ∈ scaleNames)
    (first : Begins a s) (second : Begins b s) : a = b := by
  rcases List.prefix_or_prefix_of_prefix first second with within | within
  · exact namesApart a left b right within
  · exact (namesApart b right a left within).symm

theorem beginsWithIff (name s : List Char) :
    Text.beginsWith name s = true ↔ Begins (name.map Char.toLower) s := by
  unfold Begins
  rw [List.prefix_iff_eq_take, List.length_map, ← List.map_take]
  simp only [Text.beginsWith, Text.sameName, Bool.and_eq_true, decide_eq_true_eq, beq_iff_eq]
  constructor
  · exact fun begins => begins.2
  · intro same
    have length := congrArg List.length same
    rw [List.length_map, List.length_map, List.length_take] at length
    exact ⟨by omega, same⟩

theorem takeScaleNamed {name s : List Char} (known : name ∈ scaleNames) (begins : Begins name s) :
    takeScale s = (s.take name.length, s.drop name.length) := by
  obtain ⟨n, mem, rfl⟩ : ∃ n ∈ longNames, n.map Char.toLower = name := by
    rw [← longNamesLower] at known
    exact List.mem_map.mp known
  have lower (m : List Char) (mem : m ∈ longNames) : m.map Char.toLower ∈ scaleNames := by
    rw [← longNamesLower]
    exact List.mem_map_of_mem mem
  cases found : longNames.find? (Text.beginsWith · s) with
  | none =>
    have other := List.find?_eq_none.mp found n mem
    exact absurd ((beginsWithIff n s).mpr begins) other
  | some m =>
    have first : Begins (m.map Char.toLower) s :=
      (beginsWithIff m s).mp (List.find?_some (p := (Text.beginsWith · s)) found)
    have same := nameUnique (lower m (List.mem_of_find?_eq_some found)) (lower n mem) first begins
    have length : m.length = (n.map Char.toLower).length := by rw [← same, List.length_map]
    simp only [takeScale, found, List.splitAt_eq, length]

theorem takeScaleUnnamed {s : List Char} (free : NoName s) : takeScale s = takeSymbol s := by
  have none : longNames.find? (Text.beginsWith · s) = none := by
    refine List.find?_eq_none.mpr fun n mem begins => ?_
    refine free (n.map Char.toLower) ?_ ((beginsWithIff n s).mp begins)
    rw [← longNamesLower]
    exact List.mem_map_of_mem mem
  simp only [takeScale, none]

theorem takeScalePart {s p : List Char} (part : ScalePart s p) : (takeScale s).1 = p := by
  cases part with
  | name known begins => rw [takeScaleNamed known begins]
  | binary free letter =>
    rw [takeScaleUnnamed free]
    simp [takeSymbol, letter]
  | @letter c rest free letter other =>
    rw [takeScaleUnnamed free]
    cases rest with
    | nil => simp [takeSymbol, letter]
    | cons d rest =>
      have noI : d ≠ 'i' := fun same => other (congrArg some same)
      simp [takeSymbol, letter, noI]
  | none free other =>
    rw [takeScaleUnnamed free]
    cases s with
    | nil => rfl
    | cons c rest => simp [takeSymbol, other c rfl]

theorem scalePartExists (s : List Char) : ∃ p, ScalePart s p := by
  by_cases named : ∃ name ∈ scaleNames, Begins name s
  · obtain ⟨name, known, begins⟩ := named
    exact ⟨_, .name known begins⟩
  · have free : NoName s := fun name known begins => named ⟨name, known, begins⟩
    cases s with
    | nil => exact ⟨[], .none free (by simp)⟩
    | cons c rest =>
      by_cases letter : c ∈ letters
      · by_cases binary : rest.head? = some 'i'
        · obtain ⟨rest, rfl⟩ := List.head?_eq_some_iff.mp binary
          exact ⟨_, .binary free letter⟩
        · exact ⟨_, .letter free letter binary⟩
      · exact ⟨[], .none free (by simpa using letter)⟩

theorem scalePartTaken (s : List Char) : ScalePart s (takeScale s).1 := by
  obtain ⟨p, part⟩ := scalePartExists s
  rwa [takeScalePart part]

theorem scalePartIff {s p : List Char} : ScalePart s p ↔ p = (takeScale s).1 := by
  constructor
  · exact fun part => (takeScalePart part).symm
  · rintro rfl
    exact scalePartTaken s

theorem takeScaleEq {s p : List Char} (part : ScalePart s p) : takeScale s = (p, s.drop p.length) := by
  have parts := takeScaleAppend s
  rw [takeScalePart part] at parts
  have behind : (p ++ (takeScale s).2).drop p.length = (takeScale s).2 := List.drop_left
  rw [parts] at behind
  exact Prod.ext (takeScalePart part) behind.symm

end Literal

end MetricUnits

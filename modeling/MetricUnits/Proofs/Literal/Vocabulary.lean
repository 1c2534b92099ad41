import MetricUnits.Proofs.Literal.Exactness

/-! The tokens that name something: measures by their spellings in lower case, prefixes by symbols or by
long names. An `i` is taken behind every letter of a prefix, also where there is no binary one; a literal
with such a prefix is invalid, unless it is a percentage, which has no prefix anyway. -/
namespace MetricUnits

namespace Measure

def words : List (List Char) := (all.flatMap spellings).map String.toList

theorem validIff (token : List Char) :
    (ofToken token).isValid = true ↔ Text.lower token ∈ words := by
  have spelledIff (m : Measure) :
      spelled (Text.lower token) m = true ↔ ∃ w ∈ m.spellings, w.toList = Text.lower token := by
    simp [spelled]
  simp only [words, List.mem_map, List.mem_flatMap]
  unfold ofToken
  cases found : all.find? (spelled (Text.lower token)) with
  | none =>
    refine iff_of_false (by decide) ?_
    rintro ⟨w, ⟨m, mem, spelling⟩, same⟩
    exact List.find?_eq_none.mp found m mem ((spelledIff m).mpr ⟨w, spelling, same⟩)
  | some m =>
    have mem := List.mem_of_find?_eq_some found
    obtain ⟨w, spelling, same⟩ := (spelledIff m).mp (List.find?_some found)
    exact iff_of_true ((memAllIff m).mp mem) ⟨w, ⟨m, mem, spelling⟩, same⟩

end Measure

namespace Prefix
open Literal

def symbols : List (List Char) :=
  all.map (·.symbol.toList) ++ readInLowerCase.map (·.symbol.toList.map Char.toLower)

theorem hasSymbolIff (token : List Char) :
    (∃ p ∈ all, hasSymbol token p = true) ↔ token ∈ symbols := by
  have sub : ∀ p ∈ readInLowerCase, p ∈ all := by decide
  simp only [hasSymbol, symbols, Bool.or_eq_true, Bool.and_eq_true, decide_eq_true_eq, beq_iff_eq,
    List.mem_append, List.mem_map]
  constructor
  · rintro ⟨p, mem, same | ⟨lower, same⟩⟩
    · exact .inl ⟨p, mem, same.symm⟩
    · exact .inr ⟨p, lower, same.symm⟩
  · rintro (⟨p, mem, same⟩ | ⟨p, lower, same⟩)
    · exact ⟨p, mem, .inl same.symm⟩
    · exact ⟨p, sub p lower, .inr ⟨lower, same.symm⟩⟩

theorem hasLongNameIff (token : List Char) :
    (∃ p ∈ all, hasLongName token p = true) ↔ token.map Char.toLower ∈ scaleNames := by
  simp only [← longNamesLower, longNames, hasLongName, Text.sameName, Bool.and_eq_true, bne_iff_ne,
    beq_iff_eq, List.mem_map, List.mem_filter]
  constructor
  · rintro ⟨p, mem, other, same⟩
    exact ⟨_, ⟨p, ⟨mem, other⟩, rfl⟩, same⟩
  · rintro ⟨_, ⟨p, ⟨mem, other⟩, rfl⟩, same⟩
    exact ⟨p, mem, other, same⟩

theorem validIff (token : List Char) :
    (ofToken token).isValid = true ↔ token ∈ symbols ∨ token.map Char.toLower ∈ scaleNames := by
  rw [← hasSymbolIff, ← hasLongNameIff]
  unfold ofToken
  cases symbol : all.find? (hasSymbol token) with
  | some p =>
    have mem := List.mem_of_find?_eq_some symbol
    exact iff_of_true ((memAllIff p).mp mem) (.inl ⟨p, mem, List.find?_some symbol⟩)
  | none =>
    cases long : all.find? (hasLongName token) with
    | some p =>
      have mem := List.mem_of_find?_eq_some long
      exact iff_of_true ((memAllIff p).mp mem) (.inr ⟨p, mem, List.find?_some long⟩)
    | none =>
      refine iff_of_false (by simp [isValid]) ?_
      rintro (⟨p, mem, has⟩ | ⟨p, mem, has⟩)
      · exact List.find?_eq_none.mp symbol p mem has
      · exact List.find?_eq_none.mp long p mem has

end Prefix

namespace Literal

def unknownScales : List (List Char) := ["mi", "ui", "ni"].map String.toList

theorem scalePartUnknown {s p : List Char} (part : ScalePart s p) :
    (Prefix.ofToken p).isValid = false ↔ p ∈ unknownScales := by
  constructor
  · intro unknown
    rw [← Bool.not_eq_true, Prefix.validIff, not_or] at unknown
    cases part with
    | @name n _ known begins =>
      refine absurd ?_ unknown.2
      rw [List.map_take, ← List.prefix_iff_eq_take.mp begins]
      exact known
    | @binary c _ _ letter =>
      have others : ∀ p ∈ letters.map ([·, 'i']), p ∉ Prefix.symbols → p ∈ unknownScales := by decide
      exact others _ (List.mem_map_of_mem letter) unknown.1
    | @letter c _ _ letter _ =>
      have known : ∀ p ∈ letters.map ([·]), p ∈ Prefix.symbols := by decide
      exact absurd (known _ (List.mem_map_of_mem letter)) unknown.1
    | none _ _ => exact absurd (by decide) unknown.1
  · have none : ∀ p ∈ unknownScales, (Prefix.ofToken p).isValid = false := by decide
    exact none p

theorem tokenizeScale {s : List Char} {t : Tokens} (tokens : tokenize s = some t) :
    ScalePart (beforeSlash s) t.scale := by
  rw [tokenizeClosed] at tokens
  split at tokens
  · cases tokens
    exact scalePartTaken (beforeSlash s)
  · contradiction

theorem unitUnknown {t : Tokens} (unknown : (Prefix.ofToken t.scale).isValid = false) :
    t.unit = if Measure.ofToken t.measure = .percentage then
        ⟨.base, .percentage, (t.divisor.map Measure.ofToken).filter (·.isValid)⟩
      else .invalid := by
  have none : Prefix.ofToken t.scale = .invalid := by simpa [Prefix.isValid] using unknown
  have resolved : resolve t.scale t.measure = (.invalid, Measure.ofToken t.measure) := by
    simp [resolve, none]
  by_cases percentage : Measure.ofToken t.measure = .percentage
  · have valid : Prefix.base.isValid && Measure.percentage.isValid := rfl
    simp [Tokens.unit, resolved, meantPrefix, percentage, valid]
  · have invalid : Prefix.invalid.isValid = false := rfl
    simp [Tokens.unit, resolved, meantPrefix, percentage, invalid]

theorem unknownScaleRefused {s : String} {t : Tokens} (tokens : tokenize s.toList = some t) :
    ((MetricUnit.parse s).isValid →
      (Prefix.ofToken t.scale).isValid ∨ Measure.ofToken t.measure = .percentage) ∧
    ((Prefix.ofToken t.scale).isValid = false → MetricUnit.parse s =
      if Measure.ofToken t.measure = .percentage then
        ⟨.base, .percentage, (t.divisor.map Measure.ofToken).filter (·.isValid)⟩
      else .invalid) ∧
    ((Prefix.ofToken t.scale).isValid = false ↔ t.scale ∈ unknownScales) := by
  have parsed : MetricUnit.parse s = t.unit := by rw [MetricUnit.parse, unitOfChars, tokens]
  rw [parsed]
  refine ⟨fun valid => ?_, unitUnknown, scalePartUnknown (tokenizeScale tokens)⟩
  rw [or_iff_not_imp_left, Bool.not_eq_true]
  intro none
  refine Classical.byContradiction fun other => ?_
  rw [unitUnknown none, if_neg other] at valid
  contradiction

theorem microBinaryRefused :
    let t : Tokens := ⟨['u', 'i'], ['B'], some ['s']⟩
    tokenize "uiB/s".toList = some t ∧ (Prefix.ofToken t.scale).isValid = false ∧
    t.scale ∈ unknownScales ∧ MetricUnit.parse "uiB/s" = .invalid := by
  intro t
  have tokens : tokenize "uiB/s".toList = some t := by decide +kernel
  have none : (Prefix.ofToken t.scale).isValid = false := by decide
  have other : Measure.ofToken t.measure ≠ .percentage := by decide
  obtain ⟨_, refused, unknown⟩ := unknownScaleRefused tokens
  exact ⟨tokens, none, unknown.mp none, (refused none).trans (if_neg other)⟩

theorem milliBinaryPercentage :
    tokenize "mi%".toList = some ⟨['m', 'i'], ['%'], none⟩ ∧ (MetricUnit.parse "mi%").isValid ∧
    (Prefix.lookup "mi").isValid = false ∧ MetricUnit.parse "mi%" ≠ .invalid := by
  decide +kernel

end Literal

end MetricUnits

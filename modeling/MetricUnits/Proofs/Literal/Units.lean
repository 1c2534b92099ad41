import MetricUnits.Proofs.Literal.Tokens

/-! Units that literals mean: the invalid one, and those of real parts on which the rules for prefixes
have nothing left to do. Written with symbols or with long names, a unit is read back with the prefix that
is meant and with the same measure and divisor, so each of these units is read, and no other ever is. -/
namespace MetricUnits

namespace Literal

theorem meantPrefixTwice (p : Prefix) (m : Measure) :
    meantPrefix (meantPrefix p m) m = meantPrefix p m := by
  unfold meantPrefix
  by_cases percentage : m = .percentage
  · simp [percentage]
  · by_cases milli : p = .milli ∧ m.isCountLike
    · simp [percentage, milli]
    · simp [percentage, milli]

theorem meantPrefixFixed (p : Prefix) (m : Measure) :
    meantPrefix p m = p ↔ (m = .percentage → p = .base) ∧ (m.isCountLike → p ≠ .milli) := by
  unfold meantPrefix
  by_cases percentage : m = .percentage
  · subst percentage
    simp [Measure.isCountLike, eq_comm]
  · by_cases milli : p = .milli
    · simp [percentage, milli]
    · simp [percentage, milli]

theorem meantPrefixValid {p : Prefix} (valid : p.isValid) (m : Measure) :
    (meantPrefix p m).isValid := by
  unfold meantPrefix
  split
  · rfl
  · split
    · rfl
    · exact valid

def countedPrefix (m : Measure) (p : Prefix) : Prefix :=
  if p = .milli ∧ m.isCountLike then .mega else p

def percentagePrefix (m : Measure) (p : Prefix) : Prefix := if m = .percentage then .base else p

theorem meantPrefixRules (p : Prefix) (m : Measure) :
    meantPrefix p m = percentagePrefix m (countedPrefix m p) ∧
    meantPrefix p m = countedPrefix m (percentagePrefix m p) := by
  unfold meantPrefix percentagePrefix countedPrefix
  by_cases percentage : m = .percentage
  · simp [percentage]
  · simp [percentage]

end Literal

namespace MetricUnit

/- A unit of real parts. The rules on what a prefix means need not hold of it: rescaling makes such
units of canonical ones. -/
structure Proper (u : MetricUnit) : Prop where
  scale : u.scale.isValid
  measure : u.measure.isValid
  divisor : ∀ d ∈ u.divisor, d.isValid

theorem Proper.valid {u : MetricUnit} (proper : Proper u) : u.isValid := by
  simp [isValid, proper.scale, proper.measure]

theorem Proper.withScale {u : MetricUnit} (proper : Proper u) {p : Prefix} (valid : p.isValid) :
    Proper (u.withScale p) :=
  ⟨valid, proper.measure, proper.divisor⟩

structure Canonical (u : MetricUnit) : Prop extends Proper u where
  meant : Literal.meantPrefix u.scale u.measure = u.scale

theorem invalidNotValid : MetricUnit.invalid.isValid = false := rfl

end MetricUnit

namespace Literal
open MetricUnit

theorem tokensCanonical (t : Tokens) : t.unit = .invalid ∨ Canonical t.unit := by
  unfold Tokens.unit
  dsimp only
  split
  · rename_i valid
    rw [Bool.and_eq_true] at valid
    refine .inr ⟨⟨valid.1, valid.2, ?_⟩, meantPrefixTwice _ _⟩
    intro d mem
    exact (Option.mem_filter_iff.mp mem).2
  · exact .inl rfl

theorem unitCanonical (s : List Char) : unitOfChars s = .invalid ∨ Canonical (unitOfChars s) := by
  unfold unitOfChars
  cases tokenize s with
  | none => exact .inl rfl
  | some t => exact tokensCanonical t

theorem unitCanonicalOfValid {s : List Char} (valid : (unitOfChars s).isValid) :
    Canonical (unitOfChars s) := by
  rcases unitCanonical s with invalid | canonical
  · rw [invalid] at valid
    contradiction
  · exact canonical

theorem unitRate {s d : List Char} (free : '/' ∉ s) (name : d ≠ []) (single : '/' ∉ d) :
    unitOfChars (s ++ '/' :: d) =
      if (unitOfChars s).isValid then (unitOfChars s).withDivisor (Measure.ofToken d)
      else .invalid := by
  unfold unitOfChars
  rw [tokenizeRate free name single, tokenizePlain free]
  by_cases empty : (takeScale s).2 = []
  · simp [empty, invalidNotValid]
  · simp only [empty, if_false, Option.map_some, Tokens.unit]
    split
    · rename_i valid
      simp only [isValid, valid, if_true, withDivisor, Option.filter_some]
    · simp [invalidNotValid]

end Literal

namespace MetricUnit

theorem parseCanonical (s : String) : parse s = .invalid ∨ Canonical (parse s) :=
  Literal.unitCanonical s.toList

theorem parseCanonicalOfValid {s : String} (valid : (parse s).isValid) : Canonical (parse s) :=
  Literal.unitCanonicalOfValid valid

open Literal

/- Names for prefixes and measures whose plain concatenations are read back: no prefix name takes
letters of a measure name that the collision rule does not give back. -/
structure Naming (scaleName : Prefix → String) (measureName : Measure → String) : Prop where
  reads : ∀ p ∈ Prefix.all, ∀ m ∈ Measure.all,
    unitOfChars ((scaleName p).toList ++ (measureName m).toList) = .ofMeasure (meantPrefix p m) m
  divisor : ∀ m ∈ Measure.all, Measure.ofToken (measureName m).toList = m
  scaleFree : ∀ p ∈ Prefix.all, '/' ∉ (scaleName p).toList
  measureFree : ∀ m ∈ Measure.all, '/' ∉ (measureName m).toList ∧ (measureName m).toList ≠ []
  invalid : unitOfChars (MetricUnit.invalid.written scaleName measureName) = .invalid

theorem symbolNaming : Naming Prefix.symbol Measure.symbol where
  reads := by decide +kernel
  divisor := Measure.ofTokenSymbol
  scaleFree := by decide +kernel
  measureFree := by decide +kernel
  invalid := by decide +kernel

theorem longNaming : Naming Prefix.longName Measure.longName where
  reads := by decide +kernel
  divisor := Measure.ofTokenLongName
  scaleFree := by decide +kernel
  measureFree := by decide +kernel
  invalid := by decide +kernel

theorem writtenReads {scaleName measureName} (naming : Naming scaleName measureName) {u : MetricUnit}
    (proper : Proper u) :
    unitOfChars (u.written scaleName measureName) = u.withScale (meantPrefix u.scale u.measure) := by
  obtain ⟨scale, measure, divisor⟩ := proper
  have p := (Prefix.memAllIff u.scale).mpr scale
  have m := (Measure.memAllIff u.measure).mpr measure
  have reads := naming.reads _ p _ m
  have free : '/' ∉ (scaleName u.scale).toList ++ (measureName u.measure).toList := by
    simp [naming.scaleFree _ p, (naming.measureFree _ m).1]
  obtain ⟨scale', measure', divisor'⟩ := u
  cases divisor' with
  | none => simpa [written, withScale, ofMeasure] using reads
  | some d =>
    have real : d.isValid := divisor d rfl
    have mem := (Measure.memAllIff d).mpr real
    obtain ⟨single, name⟩ := naming.measureFree d mem
    have valid : (ofMeasure (meantPrefix scale' measure') measure').isValid := by
      simp only [isValid, ofMeasure, Bool.and_eq_true]
      exact ⟨meantPrefixValid scale measure', measure⟩
    simp only [written]
    rw [unitRate free name single, reads, if_pos valid, naming.divisor d mem]
    simp [withDivisor, withScale, ofMeasure, real]

theorem canonicalReads {scaleName measureName} (naming : Naming scaleName measureName)
    {u : MetricUnit} (canonical : Canonical u) :
    unitOfChars (u.written scaleName measureName) = u := by
  rw [writtenReads naming canonical.toProper, canonical.meant]
  rfl

theorem parseWritten {scaleName measureName} (naming : Naming scaleName measureName) (s : String) :
    unitOfChars ((parse s).written scaleName measureName) = parse s := by
  rcases parseCanonical s with invalid | canonical
  · rw [invalid]
    exact naming.invalid
  · exact canonicalReads naming canonical

theorem parseShort (u : MetricUnit) :
    parse u.short = unitOfChars (u.written Prefix.symbol Measure.symbol) := by
  rw [parse, short, String.toList_ofList]

theorem parseLong (u : MetricUnit) :
    parse u.long = unitOfChars (u.written Prefix.longName Measure.longName) := by
  rw [parse, long, String.toList_ofList]

theorem renderingsReadBack (s : String) :
    parse (parse s).short = parse s ∧ parse (parse s).long = parse s := by
  rw [parseShort, parseLong]
  exact ⟨parseWritten symbolNaming s, parseWritten longNaming s⟩

structure Meant (u : MetricUnit) : Prop where
  scale : u.scale ≠ .invalid
  measure : u.measure ≠ .invalid
  divisor : ∀ d ∈ u.divisor, d ≠ .invalid
  percentage : u.measure = .percentage → u.scale = .base
  counted : u.measure.isCountLike → u.scale ≠ .milli

theorem canonicalIff {u : MetricUnit} : Canonical u ↔ Meant u := by
  constructor
  · intro canonical
    obtain ⟨percentage, counted⟩ := (Literal.meantPrefixFixed _ _).mp canonical.meant
    exact ⟨bne_iff_ne.mp canonical.scale, bne_iff_ne.mp canonical.measure,
      fun d mem => bne_iff_ne.mp (canonical.divisor d mem), percentage, counted⟩
  · intro meant
    exact ⟨⟨bne_iff_ne.mpr meant.scale, bne_iff_ne.mpr meant.measure,
      fun d mem => bne_iff_ne.mpr (meant.divisor d mem)⟩,
      (Literal.meantPrefixFixed _ _).mpr ⟨meant.percentage, meant.counted⟩⟩

theorem imageOfParsing :
    (∀ u, (∃ s, parse s = u) ↔ u = .invalid ∨ Meant u) ∧
    ∀ p m, Literal.meantPrefix p m = Literal.percentagePrefix m (Literal.countedPrefix m p) ∧
      Literal.meantPrefix p m = Literal.countedPrefix m (Literal.percentagePrefix m p) := by
  refine ⟨fun u => ⟨?_, ?_⟩, Literal.meantPrefixRules⟩
  · rintro ⟨s, rfl⟩
    exact (parseCanonical s).imp_right canonicalIff.mp
  · rintro (rfl | meant)
    · exact ⟨invalid.short, (parseShort invalid).trans symbolNaming.invalid⟩
    · exact ⟨u.short, (parseShort u).trans (canonicalReads symbolNaming (canonicalIff.mpr meant))⟩

end MetricUnit

end MetricUnits

import Mathlib.Algebra.Group.Int.Defs
import MetricUnits.Proofs.Binary.Decimals
import MetricUnits.Proofs.Json.Reading

/-! Numbers read back from their text. The digits of the decimal that is chosen for a number are laid out
as parts; wherever the point stands, the parts are a decimal of the same value. -/
namespace MetricUnits.Json

theorem natOfDigitsAppend (s t : List Char) :
    Reader.natOfDigits (s ++ t) = Nat.ofDigitChars 10 t (Reader.natOfDigits s) :=
  Nat.ofDigitChars_append 0

theorem natOfDigitsZeros (s : List Char) (k : Nat) :
    Reader.natOfDigits (s ++ List.replicate k '0') = Reader.natOfDigits s * 10 ^ k := by
  rw [natOfDigitsAppend, Nat.ofDigitChars_replicate_zero, Nat.mul_comm]

theorem natOfZerosDigits (k : Nat) (s : List Char) :
    Reader.natOfDigits (List.replicate k '0' ++ s) = Reader.natOfDigits s := by
  have zeros : Reader.natOfDigits (List.replicate k '0') = 0 := by
    simpa [Reader.natOfDigits] using natOfDigitsZeros [] k
  rw [natOfDigitsAppend, zeros]
  rfl

theorem zerosDigits (k : Nat) : AllDigits (List.replicate k '0') := by
  intro c mem
  rw [List.eq_of_mem_replicate mem]
  rfl

theorem AllDigits.append {s t : List Char} (left : AllDigits s) (right : AllDigits t) :
    AllDigits (s ++ t) := List.forall_mem_append.mpr ⟨left, right⟩

structure Parts.Writes (p : Parts) (d : Decimal) (text : List Char) : Prop where
  proper : p.WellFormed
  real : p.fraction.isSome ∨ p.exponent.isSome
  text : p.text = text
  value (f : Format) (negative : Bool) : p.decimal.toBinary f negative = d.toBinary f negative

theorem Parts.sameValue {p : Parts} {d : Decimal} (k : Nat)
    (coefficient : Reader.natOfDigits (p.whole ++ p.fraction.getD []) = d.coefficient * 10 ^ k)
    (exponent : p.exponent.getD 0 - (p.fraction.getD []).length = d.exponent - k)
    (f : Format) (negative : Bool) : p.decimal.toBinary f negative = d.toBinary f negative := by
  rw [Parts.decimal, coefficient, exponent, Decimal.toBinaryShift]

structure DigitsOf (d : Decimal) (s : List Char) : Prop where
  digits : AllDigits s
  value : Reader.natOfDigits s = d.coefficient
  first : ∃ c more, s = c :: more ∧ c ≠ '0'

theorem digitsOf {d : Decimal} (nonzero : d.coefficient ≠ 0) :
    DigitsOf d (Nat.toDigits 10 d.coefficient) :=
  ⟨toDigitsDigits _, natOfToDigits _, toDigitsHead nonzero⟩

namespace DigitsOf
variable {d : Decimal} {s : List Char}

theorem filled (of : DigitsOf d s) : s ≠ [] := by
  obtain ⟨c, more, rfl, _⟩ := of.first
  exact List.cons_ne_nil _ _

theorem wholeAppend (of : DigitsOf d s) {t : List Char} (more : AllDigits t) : IsWhole (s ++ t) := by
  obtain ⟨c, s, rfl, first⟩ := of.first
  exact ⟨of.digits.append more, .inr ⟨c, s ++ t, rfl, first⟩⟩

theorem wholeTake (of : DigitsOf d s) (n : Nat) : IsWhole (s.take (n + 1)) := by
  obtain ⟨c, s, rfl, first⟩ := of.first
  exact ⟨fun d mem => of.digits d (List.mem_of_mem_take mem), .inr ⟨c, s.take n, rfl, first⟩⟩

theorem dropDigits (of : DigitsOf d s) (n : Nat) : AllDigits (s.drop n) :=
  fun c mem => of.digits c (List.mem_of_mem_drop mem)

theorem pointBefore (of : DigitsOf d s) (below : s.length + d.exponent ≤ 0) :
    ∃ p : Parts, p.Writes d
      ('0' :: '.' :: (List.replicate (-(s.length + d.exponent)).toNat '0' ++ s)) := by
  refine ⟨⟨['0'], some (List.replicate (-(s.length + d.exponent)).toNat '0' ++ s), none⟩,
    ⟨wholeZero, ?_⟩, .inl rfl, ?_, Parts.sameValue 0 ?_ ?_⟩
  · rintro _ ⟨⟩
    exact ⟨by simp [of.filled], (zerosDigits _).append of.digits⟩
  · simp [Parts.text, Parts.fractionText, Parts.exponentText]
  · have zeros := natOfZerosDigits ((-(s.length + d.exponent)).toNat + 1) s
    rw [of.value] at zeros
    simpa [List.replicate_succ] using zeros
  · simp only [Option.getD, List.length_append, List.length_replicate]
    omega

theorem pointBehind (of : DigitsOf d s) {k : Nat} (above : d.exponent = k) :
    ∃ p : Parts, p.Writes d (s ++ List.replicate k '0' ++ ['.', '0']) := by
  refine ⟨⟨s ++ List.replicate k '0', some ['0'], none⟩, ⟨of.wholeAppend (zerosDigits k), ?_⟩,
    .inl rfl, ?_, Parts.sameValue (k + 1) ?_ ?_⟩
  · rintro _ ⟨⟩
    exact ⟨by decide, zerosDigits 1⟩
  · simp [Parts.text, Parts.fractionText, Parts.exponentText]
  · have zeros := natOfDigitsZeros s (k + 1)
    rw [of.value, List.replicate_succ', ← List.append_assoc] at zeros
    exact zeros
  · simp only [above, Option.getD, List.length_singleton]
    omega

theorem pointWithin (of : DigitsOf d s) {n : Nat} (point : (n : Int) + 1 = s.length + d.exponent)
    (within : n + 1 < s.length) :
    ∃ p : Parts, p.Writes d (s.take (n + 1) ++ '.' :: s.drop (n + 1)) := by
  refine ⟨⟨s.take (n + 1), some (s.drop (n + 1)), none⟩, ⟨of.wholeTake n, ?_⟩, .inl rfl, ?_,
    Parts.sameValue 0 ?_ ?_⟩
  · rintro _ ⟨⟩
    exact ⟨by simpa using within, of.dropDigits _⟩
  · simp [Parts.text, Parts.fractionText, Parts.exponentText]
  · simp [of.value]
  · simp only [Option.getD, List.length_drop]
    omega

theorem inFull (of : DigitsOf d s) {layout : NumberLayout} (pointed : layout.pointZero = true) :
    ∃ p : Parts, p.Writes d (layout.inFull s (s.length + d.exponent)) := by
  unfold NumberLayout.inFull
  split
  · rename_i below
    exact of.pointBefore below
  · rename_i positive
    split
    · rename_i behind
      exact of.pointBehind (by omega)
    · rename_i within
      obtain ⟨n, point⟩ : ∃ n : Nat, (s.length + d.exponent).toNat = n + 1 :=
        ⟨(s.length + d.exponent).toNat - 1, by omega⟩
      rw [point] at within ⊢
      exact of.pointWithin (by omega) (by omega)

theorem scientific (of : DigitsOf d s) :
    ∃ p : Parts, p.Writes d (NumberLayout.scientific s (s.length + d.exponent)) := by
  obtain ⟨c, more, rfl, first⟩ := of.first
  have whole : IsWhole [c] := of.wholeTake 0
  have value : Reader.natOfDigits (c :: more) = d.coefficient * 10 ^ 0 := by
    rw [of.value, Nat.pow_zero, Nat.mul_one]
  have text (fraction : Option (List Char)) (e : Int) :
      Parts.text ⟨[c], fraction, some e⟩ =
        c :: (Parts.fractionText fraction ++ 'e' :: (if e < 0 then '-' else '+') ::
          Nat.toDigits 10 e.natAbs) := rfl
  cases more with
  | nil =>
    refine ⟨⟨[c], none, some ([c].length + d.exponent - 1)⟩, ⟨whole, by rintro _ ⟨⟩⟩, .inr rfl,
      text _ _, Parts.sameValue 0 value ?_⟩
    simp only [Option.getD, List.length_cons, List.length_nil]
    omega
  | cons b more =>
    refine ⟨⟨[c], some (b :: more), some ((c :: b :: more).length + d.exponent - 1)⟩, ⟨whole, ?_⟩,
      .inr rfl, (text _ _).trans ?_, Parts.sameValue 0 value ?_⟩
    · rintro _ ⟨⟩
      exact ⟨List.cons_ne_nil _ _, of.dropDigits 1⟩
    · simp [Parts.fractionText, NumberLayout.scientific]
    · simp only [Option.getD, List.length_cons]
      omega

end DigitsOf

theorem shortestNonzero (tie : Tie) {f : Format} {m : Nat} (fits : f.Fits m) (nonzero : m ≠ 0) :
    (Decimal.shortest f tie m).coefficient ≠ 0 := by
  intro zero
  have reads := Decimal.shortestReadsBack tie fits nonzero
  rw [Decimal.toBinary, if_pos (.inl zero)] at reads
  exact nonzero (Int.ofNat.inj reads).symm

theorem magnitudeParts (layout : NumberLayout) (pointed : layout.pointZero = true) {f : Format} {m : Nat}
    (fits : f.Fits m) : ∃ p : Parts, p.WellFormed ∧ (p.fraction.isSome ∨ p.exponent.isSome) ∧
      p.text = layout.magnitude f m ∧
      ∀ negative, p.decimal.toBinary f negative = .finite negative m fits := by
  unfold NumberLayout.magnitude
  split
  · rename_i zero
    subst zero
    refine ⟨⟨['0'], some ['0'], none⟩, ⟨wholeZero, ?_⟩, .inl rfl, rfl, fun negative => rfl⟩
    rintro _ ⟨⟩
    exact ⟨List.cons_ne_nil _ _, wholeZero.digits⟩
  · rename_i nonzero
    have of := digitsOf (shortestNonzero layout.tie fits nonzero)
    have value (negative : Bool) :
        (Decimal.shortest f layout.tie m).toBinary f negative = .finite negative m fits := by
      have steps := Decimal.shortestReadsBack layout.tie fits nonzero
      obtain ⟨_, same⟩ := Decimal.toBinarySign steps nonzero negative
      exact same
    have parts {text : List Char}
        (written : ∃ p : Parts, p.Writes (Decimal.shortest f layout.tie m) text) :
        ∃ p : Parts, p.WellFormed ∧ (p.fraction.isSome ∨ p.exponent.isSome) ∧ p.text = text ∧
          ∀ negative, p.decimal.toBinary f negative = .finite negative m fits := by
      obtain ⟨p, writes⟩ := written
      exact ⟨p, writes.proper, writes.real, writes.text, fun s => (writes.value f s).trans (value s)⟩
    dsimp only
    split
    · exact parts (of.inFull pointed)
    · exact parts of.scientific

def Number.Readable : Number → Prop
  | .integer n => IntegerType.int64.Holds n ∨ IntegerType.uint64.Holds n
  | .double x => x.isFinite = true
  | .single _ => False

theorem wholeReadable {n : Int} (low : -2 ^ 63 ≤ n) (high : n ≤ 2 ^ 64 - 1) :
    (Number.integer n).Readable := by
  by_cases signed : n ≤ 2 ^ 63 - 1
  · exact .inl ⟨low, signed⟩
  · have positive : 0 ≤ n := by omega
    exact .inr ⟨positive, high⟩

theorem integerParts (n : Int) :
    Decimal.integerDigits n =
      Reader.signText (n < 0) ++ Parts.text ⟨Nat.toDigits 10 n.natAbs, none, none⟩ := by
  cases n <;> simp [Decimal.integerDigits, Reader.signText, Parts.text, Parts.fractionText,
    Parts.exponentText]

theorem integerOfParts {n : Int} (fits : IntegerType.int64.Holds n ∨ IntegerType.uint64.Holds n) :
    Reader.numberOfParts? (n < 0) (Nat.toDigits 10 n.natAbs) none none = some (.integer n) := by
  have signed : (if decide (n < 0) then -(n.natAbs : Int) else n.natAbs) = n := by
    simp only [decide_eq_true_eq]
    split <;> omega
  have positive : ¬(decide (n < 0) = true ∧ n.natAbs = 0) := by
    simp only [decide_eq_true_eq]
    omega
  simp only [Reader.numberOfParts?, natOfToDigits, signed]
  rw [if_pos ⟨fits, positive⟩]

theorem realOfParts {p : Parts} (real : p.fraction.isSome ∨ p.exponent.isSome) (negative : Bool)
    (finite : (p.decimal.toBinary .double negative).isFinite = true) :
    Reader.numberOfParts? negative p.whole p.fraction p.exponent =
      some (.double (p.decimal.toBinary .double negative)) := by
  obtain ⟨whole, fraction, exponent⟩ := p
  cases fraction with
  | some digits => exact if_pos finite
  | none =>
    cases exponent with
    | some e => exact if_pos finite
    | none => simp at real

theorem numberParts {n : Number} (readable : n.Readable) : ∃ (p : Parts) (negative : Bool),
    p.WellFormed ∧ numberChars n = Reader.signText negative ++ p.text ∧
    Reader.numberOfParts? negative p.whole p.fraction p.exponent = some n := by
  cases n with
  | integer n =>
    exact ⟨_, _, ⟨toDigitsWhole _, by rintro _ ⟨⟩⟩, integerParts n, integerOfParts readable⟩
  | double x =>
    cases x with
    | nan => cases readable
    | infinite negative => cases readable
    | finite negative m fits =>
      obtain ⟨p, proper, real, text, value⟩ := magnitudeParts .jsonDouble rfl fits
      have made := realOfParts real negative (by rw [value]; rfl)
      rw [value] at made
      exact ⟨p, negative, proper, congrArg (Reader.signText negative ++ ·) text.symm, made⟩
  | single x => cases readable

theorem numberReads {n : Number} (readable : n.Readable) {rest : List Char} (stop : Reader.Stops rest) :
    Reader.number (numberChars n ++ rest) = .ok (n, rest) := by
  obtain ⟨p, negative, proper, text, made⟩ := numberParts readable
  rw [text, List.append_assoc]
  exact Reader.partsRead proper made stop

theorem numberBegins {n : Number} (readable : n.Readable) :
    ∃ c more, numberChars n = c :: more ∧ (c = '-' ∨ c.isDigit = true) := by
  obtain ⟨p, negative, proper, text, _⟩ := numberParts readable
  cases negative with
  | true => exact ⟨'-', p.text, text, .inl rfl⟩
  | false =>
    obtain ⟨c, more, whole, digit⟩ := proper.whole.head
    have first : numberChars n =
        c :: (more ++ (Parts.fractionText p.fraction ++ Parts.exponentText p.exponent)) := by
      rw [text, Parts.text, whole]
      rfl
    exact ⟨c, _, first, .inr digit⟩

end MetricUnits.Json

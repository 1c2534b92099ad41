import Mathlib.Data.List.TakeDrop
import MetricUnits.Json.Shape

/-! Steps of readers, strings, and the parts of a number's text. A reader is run on the text that it takes
with any other text behind it, and leaves that text; what is written for a string is taken back as the
string. Each part of a number ends where the next one begins, so they are read back one by one. -/
namespace MetricUnits.Json

namespace Reader
variable {α β : Type}

@[simp] theorem bindApply (r : Reader α) (g : α → Reader β) (s : List Char) :
    (r >>= g) s = (r s).bind fun (x, t) => g x t := by
  cases h : r s <;> simp [bind, StateT.bind, h, Except.bind]

@[simp] theorem okBind (x : α × List Char) (g : α × List Char → Except Fault β) :
    (Except.ok x : Except Fault (α × List Char)).bind g = g x := rfl

@[simp] theorem mapApply (g : α → β) (r : Reader α) (s : List Char) :
    (g <$> r) s = (r s).map fun (x, t) => (g x, t) := by
  cases h : r s <;> simp [Functor.map, StateT.map, h, Except.bind, Except.map, bind, pure, Except.pure]

@[simp] theorem okMap (x : α × List Char) (g : α × List Char → β × List Char) :
    (Except.ok x : Except Fault (α × List Char)).map g = .ok (g x) := rfl

@[simp] theorem pureApply (x : α) (s : List Char) : (pure x : Reader α) s = .ok (x, s) := rfl

@[simp] theorem getApply (s : List Char) : (get : Reader (List Char)) s = .ok (s, s) := rfl

@[simp] theorem peekApply (s : List Char) : peek s = .ok (s.head?, s) := rfl

@[simp] theorem takeCons (c : Char) (s : List Char) : take (c :: s) = .ok (some c, s) := rfl

@[simp] theorem advanceCons (c : Char) (s : List Char) : advance (c :: s) = .ok ((), s) := rfl

@[simp] theorem iteApply (p : Prop) [Decidable p] (r t : Reader α) (s : List Char) :
    (if p then r else t) s = if p then r s else t s := by
  split <;> rfl

@[simp] theorem peekTokenCons (c : Char) (s : List Char) (dark : isBlank c = false) :
    peekToken (c :: s) = .ok (some c, c :: s) := by
  simp [peekToken, dark]

theorem peekTokenBlanks {blanks : List Char} (blank : ∀ c ∈ blanks, isBlank c) (s : List Char) :
    peekToken (blanks ++ s) = peekToken s := by
  unfold peekToken
  rw [List.dropWhile_append_of_pos blank]

theorem colonReads (rest : List Char) : colon (':' :: rest) = .ok ((), rest) := by
  simp [colon, isBlank]

theorem hexDigitsValue : ∀ n < 32, hexValue? ('0' :: '0' :: twoHexDigits n) = some n := by decide

theorem unicodeEscapeReads {c : Char} (control : c.toNat < 32) (rest : List Char) :
    unicodeEscape ('0' :: '0' :: (twoHexDigits c.toNat ++ rest)) = .ok (c, rest) := by
  have unit : hexUnit ('0' :: '0' :: (twoHexDigits c.toNat ++ rest)) = .ok (c.toNat, rest) := by
    have value := hexDigitsValue c.toNat control
    unfold twoHexDigits at value
    simp only [hexUnit, twoHexDigits, List.cons_append, List.nil_append, value]
  have low : ¬ (0xdc00 ≤ c.toNat ∧ c.toNat ≤ 0xdfff) := by omega
  have high : ¬ (0xd800 ≤ c.toNat ∧ c.toNat ≤ 0xdbff) := by omega
  simp [unicodeEscape, unit, low, high, Char.ofNat_toNat]

theorem stringStep (c b : Char) (bound before rest : List Char) :
    stringFrom (b :: bound) before (escapeChar c ++ rest) = stringFrom bound (c :: before) rest := by
  unfold escapeChar
  split
  case h_8 _ quote slash _ _ _ _ _ =>
    split
    · rename_i control
      simp [stringFrom, escape, unicodeEscapeReads control]
    · rename_i shown
      simp [stringFrom, shown, if_neg quote, if_neg slash]
  all_goals simp [stringFrom, escape]

theorem stringFromReads {s bound : List Char} (room : s.length < bound.length)
    (before rest : List Char) :
    stringFrom bound before (s.flatMap escapeChar ++ '\"' :: rest) =
      .ok (before.reverse ++ s, rest) := by
  induction s generalizing bound before with
  | nil =>
    cases bound with
    | nil => simp at room
    | cons b bound => simp [stringFrom]
  | cons c s ih =>
    cases bound with
    | nil => simp at room
    | cons b bound =>
      rw [List.flatMap_cons, List.append_assoc, stringStep, ih (Nat.lt_of_succ_lt_succ room)]
      simp

theorem escapeLength (s : List Char) : s.length ≤ (s.flatMap escapeChar).length := by
  induction s with
  | nil => simp
  | cons c s ih =>
    have one : 0 < (escapeChar c).length := by
      unfold escapeChar
      split
      case h_8 => split <;> simp
      all_goals simp
    rw [List.flatMap_cons, List.length_append, List.length_cons]
    omega

theorem stringBodyReads (s : String) (rest : List Char) :
    stringBody (s.toList.flatMap escapeChar ++ '\"' :: rest) = .ok (s, rest) := by
  have room : s.toList.length < (s.toList.flatMap escapeChar ++ '\"' :: rest).length := by
    have := escapeLength s.toList
    simp only [List.length_append, List.length_cons]
    omega
  simp [stringBody, stringFromReads room]

theorem stringReads (s : String) (rest : List Char) :
    string (stringChars s ++ rest) = .ok (s, rest) := by
  simp [string, expecting, stringChars, stringBodyReads, isBlank]

end Reader

theorem natOfToDigits (n : Nat) : Reader.natOfDigits (Nat.toDigits 10 n) = n :=
  Nat.ofDigitChars_toDigits (by decide) (by decide)

def AllDigits (s : List Char) : Prop := ∀ c ∈ s, c.isDigit = true

theorem toDigitsDigits (n : Nat) : AllDigits (Nat.toDigits 10 n) :=
  fun _ mem => Nat.isDigit_of_mem_toDigits (by decide) (by decide) mem

theorem toDigitsHead {n : Nat} (nonzero : n ≠ 0) :
    ∃ c more, Nat.toDigits 10 n = c :: more ∧ c ≠ '0' := by
  induction n using Nat.strongRecOn with
  | ind n ih =>
    by_cases single : n < 10
    · have first : ∀ n < 10, n ≠ 0 → Nat.digitChar n ≠ '0' := by decide
      exact ⟨_, [], Nat.toDigits_of_lt_base single, first n single nonzero⟩
    · obtain ⟨c, more, digits, head⟩ := ih (n / 10) (by omega) (by omega)
      refine ⟨c, more ++ [Nat.digitChar (n % 10)], ?_, head⟩
      rw [Nat.toDigits_of_base_le (by decide) (Nat.le_of_not_lt single), digits]
      rfl

structure IsWhole (s : List Char) : Prop where
  digits : AllDigits s
  first : s = ['0'] ∨ ∃ c more, s = c :: more ∧ c ≠ '0'

theorem wholeZero : IsWhole ['0'] := ⟨List.forall_mem_singleton.mpr rfl, .inl rfl⟩

theorem IsWhole.head {s : List Char} (whole : IsWhole s) :
    ∃ c more, s = c :: more ∧ c.isDigit = true := by
  obtain ⟨all, rfl | ⟨c, more, rfl, _⟩⟩ := whole
  · exact ⟨'0', [], rfl, rfl⟩
  · exact ⟨c, more, rfl, all c List.mem_cons_self⟩

theorem toDigitsWhole (n : Nat) : IsWhole (Nat.toDigits 10 n) := by
  refine ⟨toDigitsDigits n, ?_⟩
  by_cases zero : n = 0
  · subst zero
    exact .inl rfl
  · exact .inr (toDigitsHead zero)

structure Parts where
  whole : List Char
  fraction : Option (List Char)
  exponent : Option Int

namespace Parts

def fractionText : Option (List Char) → List Char
  | none => []
  | some digits => '.' :: digits

def exponentText : Option Int → List Char
  | none => []
  | some e => 'e' :: (if e < 0 then '-' else '+') :: Nat.toDigits 10 e.natAbs

def text (p : Parts) : List Char := p.whole ++ (fractionText p.fraction ++ exponentText p.exponent)

structure WellFormed (p : Parts) : Prop where
  whole : IsWhole p.whole
  fraction : ∀ digits ∈ p.fraction, digits ≠ [] ∧ AllDigits digits

def decimal (p : Parts) : Decimal :=
  ⟨Reader.natOfDigits (p.whole ++ p.fraction.getD []),
    p.exponent.getD 0 - (p.fraction.getD []).length⟩

end Parts

namespace Reader
open Parts

def Stops (rest : List Char) : Prop := ∀ c ∈ rest.head?, c.isDigit = false ∧ c ≠ '.' ∧ c ≠ 'e' ∧ c ≠ 'E'

def NoDigit (rest : List Char) : Prop := ∀ c ∈ rest.head?, c.isDigit = false

theorem Stops.noDigit {rest : List Char} (stop : Stops rest) : NoDigit rest :=
  fun c head => (stop c head).1

theorem digitsReads {s rest : List Char} (all : AllDigits s) (stop : NoDigit rest) :
    digits (s ++ rest) = .ok (s, rest) := by
  have span : (s ++ rest).span Char.isDigit = (s, rest) := by
    rw [List.span_eq_takeWhile_dropWhile, List.takeWhile_append_of_pos all,
      List.dropWhile_append_of_pos all]
    cases rest with
    | nil => simp
    | cons c rest => simp [stop c rfl]
  rw [digits, span]

theorem wholeReads {s rest : List Char} (whole : IsWhole s) (stop : NoDigit rest) :
    wholeDigits (s ++ rest) = .ok (s, rest) := by
  obtain ⟨all, rfl | ⟨c, more, rfl, first⟩⟩ := whole
  · cases rest with
    | nil => simp [wholeDigits]
    | cons d rest => simp [wholeDigits, stop d rfl]
  · obtain ⟨digit, more⟩ := List.forall_mem_cons.mp all
    simp [wholeDigits, first, digit, digitsReads more stop]

theorem fractionReads {fraction : Option (List Char)} {rest : List Char}
    (proper : ∀ digits ∈ fraction, digits ≠ [] ∧ AllDigits digits) (stop : NoDigit rest)
    (point : rest.head? ≠ some '.') :
    fractionDigits (fractionText fraction ++ rest) = .ok (fraction, rest) := by
  cases fraction with
  | none => simp [fractionDigits, fractionText, point]
  | some s =>
    obtain ⟨some, all⟩ := proper s rfl
    simp [fractionDigits, fractionText, digitsReads all stop, some]

theorem exponentReads {exponent : Option Int} {rest : List Char} (stop : Stops rest) :
    exponentPart (exponentText exponent ++ rest) = .ok (exponent, rest) := by
  cases exponent with
  | none =>
    have other : ¬ (rest.head? = some 'e' ∨ rest.head? = some 'E') := by
      rintro (e | e)
      · exact (stop 'e' e).2.2.1 rfl
      · exact (stop 'E' e).2.2.2 rfl
    simp [exponentPart, exponentText, if_neg other]
  | some e =>
    obtain ⟨c, more, parts, digit⟩ := (toDigitsWhole e.natAbs).head
    have all := toDigitsDigits e.natAbs
    have value := natOfToDigits e.natAbs
    rw [parts] at all value
    obtain ⟨_, all⟩ := List.forall_mem_cons.mp all
    by_cases negative : e < 0
    · have magnitude : -((natOfDigits (c :: more) : Nat) : Int) = e := by rw [value]; omega
      simp [exponentPart, exponentText, exponentSign, parts, negative, digit,
        digitsReads all stop.noDigit, magnitude]
    · have magnitude : ((natOfDigits (c :: more) : Nat) : Int) = e := by rw [value]; omega
      simp [exponentPart, exponentText, exponentSign, parts, negative, digit,
        digitsReads all stop.noDigit, magnitude]

def signText (negative : Bool) : List Char := if negative then ['-'] else []

theorem minusReads (negative : Bool) {s : List Char} (other : s.head? ≠ some '-') :
    minus (signText negative ++ s) = .ok (negative, s) := by
  cases negative with
  | true => simp [minus, signText]
  | false => simp [minus, signText, other]

theorem exponentEnds (exponent : Option Int) {rest : List Char} (stop : Stops rest) :
    NoDigit (exponentText exponent ++ rest) ∧ (exponentText exponent ++ rest).head? ≠ some '.' := by
  cases exponent with
  | none => exact ⟨stop.noDigit, fun point => (stop '.' point).2.1 rfl⟩
  | some e => exact ⟨by simp [exponentText, NoDigit], by simp [exponentText]⟩

theorem fractionEnds {fraction : Option (List Char)} {rest : List Char} (stop : NoDigit rest) :
    NoDigit (fractionText fraction ++ rest) := by
  cases fraction with
  | none => exact stop
  | some s => simp [fractionText, NoDigit]

theorem partsRead {p : Parts} (proper : p.WellFormed) {negative : Bool} {n : Number}
    (made : numberOfParts? negative p.whole p.fraction p.exponent = some n) {rest : List Char}
    (stop : Stops rest) : number (signText negative ++ (p.text ++ rest)) = .ok (n, rest) := by
  obtain ⟨ended, point⟩ := exponentEnds p.exponent stop
  have unsigned : (p.text ++ rest).head? ≠ some '-' := by
    obtain ⟨c, more, whole, digit⟩ := proper.whole.head
    rw [Parts.text, whole]
    rintro minus
    obtain rfl : c = '-' := Option.some.inj minus
    cases digit
  rw [number, bindApply, minusReads negative unsigned]
  simp only [bindApply, okBind, Parts.text, List.append_assoc,
    wholeReads proper.whole (fractionEnds ended), fractionReads proper.fraction ended point,
    exponentReads stop, made, pureApply]

end Reader

end MetricUnits.Json

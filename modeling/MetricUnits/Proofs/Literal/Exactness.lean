import Mathlib.Data.List.TakeWhile
import MetricUnits.Proofs.Literal.Grammar
import MetricUnits.Proofs.Literal.Units

/-! Tokens of a text in closed form: what stands before the first slash without its prefix part, and what
stands behind that slash. The tokens are those of the grammar, and nothing of the text is lost. So the two
sides of a slash are read apart, and a text with slashes in other places is no literal. -/
namespace MetricUnits

namespace Literal

def beforeSlash (s : List Char) : List Char := s.takeWhile (· != '/')

def behindSlash? (s : List Char) : Option (List Char) := (s.dropWhile (· != '/')).tail?

def Tokens.text (t : Tokens) : List Char :=
  t.scale ++ t.measure ++ match t.divisor with
    | some d => '/' :: d
    | none => []

variable {s : List Char}

theorem beforeSlashFree (free : '/' ∉ s) : beforeSlash s = s ∧ behindSlash? s = none := by
  have keep := noSlash free
  rw [beforeSlash, behindSlash?, List.takeWhile_eq_self_iff.mpr keep,
    List.dropWhile_eq_nil_iff.mpr keep]
  exact ⟨rfl, rfl⟩

theorem beforeSlashAppend (free : '/' ∉ s) (d : List Char) :
    beforeSlash (s ++ '/' :: d) = s ∧ behindSlash? (s ++ '/' :: d) = some d := by
  have keep := noSlash free
  rw [beforeSlash, behindSlash?, List.takeWhile_append_of_pos keep,
    List.dropWhile_append_of_pos keep]
  simp

theorem restNonempty (s : List Char) :
    (takeScale s).2 ≠ [] ↔ (takeScale s).1.length < s.length := by
  have length := congrArg List.length (takeScaleAppend s)
  rw [List.length_append] at length
  rw [← List.length_pos_iff]
  omega

theorem tokenizeClosed (s : List Char) :
    let left := beforeSlash s
    tokenize s =
      if s.count '/' ≤ 1 ∧ behindSlash? s ≠ some [] ∧ (takeScale left).1.length < left.length then
        some ⟨(takeScale left).1, (takeScale left).2, behindSlash? s⟩
      else none := by
  intro left
  by_cases slash : '/' ∈ s
  · obtain ⟨first, d, rfl, free⟩ := List.eq_append_cons_of_mem slash
    obtain ⟨before, behind⟩ := beforeSlashAppend free d
    have count : (first ++ '/' :: d).count '/' ≤ 1 ↔ '/' ∉ d := by
      rw [List.count_append, List.count_eq_zero.mpr free, List.count_cons_self, ← List.count_eq_zero]
      omega
    simp only [left, before, behind, count, ← restNonempty, tokenizeSlash free]
    by_cases nothing : (takeScale first).2 = []
    · simp [nothing]
    · by_cases single : '/' ∈ d
      · simp [single]
      · simp [nothing, single]
  · obtain ⟨before, behind⟩ := beforeSlashFree slash
    simp only [left, before, behind, List.count_eq_zero.mpr slash, ← restNonempty, tokenizePlain slash]
    by_cases nothing : (takeScale s).2 = []
    · simp [nothing]
    · simp [nothing]

theorem tokensText {t : Tokens} (tokens : tokenize s = some t) : t.text = s := by
  have whole := takeScaleAppend (beforeSlash s)
  rw [tokenizeClosed] at tokens
  split at tokens
  · cases tokens
    rw [Tokens.text, whole]
    by_cases slash : '/' ∈ s
    · obtain ⟨first, d, rfl, free⟩ := List.eq_append_cons_of_mem slash
      obtain ⟨before, behind⟩ := beforeSlashAppend free d
      rw [before, behind]
    · obtain ⟨before, behind⟩ := beforeSlashFree slash
      rw [before, behind, List.append_nil]
  · contradiction

theorem tokensExact (s : List Char) : ∃ p,
    (∀ q, ScalePart (beforeSlash s) q ↔ q = p) ∧
    (tokenize s =
      if s.count '/' ≤ 1 ∧ behindSlash? s ≠ some [] ∧ p.length < (beforeSlash s).length then
        some ⟨p, (beforeSlash s).drop p.length, behindSlash? s⟩
      else none) ∧
    (∀ t, tokenize s = some t → t.text = s) ∧
    ∀ r, Grammar.Reads Grammar.literal s r ↔ r = (tokenize s).map fun t => (Grammar.pairs t, []) := by
  have part := scalePartTaken (beforeSlash s)
  have rest : (takeScale (beforeSlash s)).2 = (beforeSlash s).drop (takeScale (beforeSlash s)).1.length :=
    congrArg Prod.snd (takeScaleEq part)
  refine ⟨_, fun q => scalePartIff, ?_, fun t => tokensText, Grammar.literalReadsIff s⟩
  rw [← rest]
  exact tokenizeClosed s

theorem mixedCaseTokens :
    let s := "mIlLi°/\nk".toList
    let t : Tokens := ⟨"mIlLi".toList, ['°'], some ['\n', 'k']⟩
    tokenize s = some t ∧ t.text = s := by
  intro s t
  have tokens : tokenize s = some t := by decide +kernel
  obtain ⟨_, _, _, whole, _⟩ := tokensExact s
  exact ⟨tokens, whole t tokens⟩

def Misplaced (s : List Char) : Prop := 2 ≤ s.count '/' ∨ ['/'] <+: s ∨ ['/'] <:+ s

instance (s : List Char) : Decidable (Misplaced s) :=
  inferInstanceAs (Decidable (_ ∨ _ ∨ _))

theorem severalRefused (several : 2 ≤ s.count '/') : tokenize s = none := by
  rw [tokenizeClosed]
  exact if_neg fun one => by omega

theorem nothingBeforeRefused (d : List Char) : tokenize ('/' :: d) = none := by
  have none := tokenizeSlash (s := []) List.not_mem_nil d
  rwa [if_pos (.inl rfl)] at none

theorem nothingBehindRefused (s : List Char) : tokenize (s ++ ['/']) = none := by
  by_cases slash : '/' ∈ s
  · refine severalRefused ?_
    have one := List.count_pos_iff.mpr slash
    rw [List.count_append, List.count_singleton_self]
    omega
  · rw [tokenizeSlash slash, if_pos (.inr (.inl rfl))]

theorem misplacedRefused (misplaced : Misplaced s) : tokenize s = none := by
  rcases misplaced with several | ⟨d, rfl⟩ | ⟨a, rfl⟩
  · exact severalRefused several
  · exact nothingBeforeRefused d
  · exact nothingBehindRefused a

end Literal

namespace MetricUnit
open Literal

theorem divisorsApart :
    (∀ s d : String, '/' ∉ s.toList → '/' ∉ d.toList → d ≠ "" → parse (s ++ "/" ++ d) =
      if (parse s).isValid then
        ⟨(parse s).scale, (parse s).measure,
          if (Measure.lookup d).isValid then some (Measure.lookup d) else none⟩
      else .invalid) ∧
    ∀ s : String, Misplaced s.toList → parse s = .invalid := by
  refine ⟨fun s d free single name => ?_, fun s misplaced => ?_⟩
  · have text : (s ++ "/" ++ d).toList = s.toList ++ '/' :: d.toList := by simp
    have some : d.toList ≠ [] := by simpa using name
    rw [parse, text]
    exact unitRate free some single
  · rw [parse, unitOfChars, misplacedRefused misplaced]

/- The first letter is given back to the percentage, and `fortnight` names no divisor. -/
theorem divisorOfPercentageApart :
    ('/' ∉ "percent".toList ∧ '/' ∉ "fortnight".toList ∧ "fortnight" ≠ "" ∧ (parse "percent").isValid) ∧
    parse ("percent" ++ "/" ++ "fortnight") = ⟨.base, .percentage, none⟩ ∧
    Misplaced "B/s/".toList ∧ parse "B/s/" = .invalid := by
  have free : '/' ∉ "percent".toList := by decide
  have single : '/' ∉ "fortnight".toList := by decide
  have valid : (parse "percent").isValid := by decide +kernel
  have rate := divisorsApart.1 "percent" "fortnight" free single (by decide)
  rw [if_pos valid] at rate
  have misplaced : Misplaced "B/s/".toList := by decide
  exact ⟨⟨free, single, by decide, valid⟩, rate.trans (by decide +kernel), misplaced,
    divisorsApart.2 "B/s/" misplaced⟩

end MetricUnit

end MetricUnits

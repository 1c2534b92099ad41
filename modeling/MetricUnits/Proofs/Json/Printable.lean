import MetricUnits.Json.Basic

/-! Compact text has no control characters, whatever is written: all those of strings are escaped, and
nothing else brings one in. -/
namespace MetricUnits

def Printable (s : List Char) : Prop := ∀ c ∈ s, 32 ≤ c.toNat

instance (s : List Char) : Decidable (Printable s) := List.decidableBAll (fun c : Char => 32 ≤ c.toNat) s

namespace Printable
variable {s t : List Char}

theorem nil : Printable [] := by simp [Printable]

theorem cons {c : Char} (first : 32 ≤ c.toNat) (rest : Printable s) : Printable (c :: s) :=
  List.forall_mem_cons.mpr ⟨first, rest⟩

theorem append (left : Printable s) (right : Printable t) : Printable (s ++ t) :=
  List.forall_mem_append.mpr ⟨left, right⟩

end Printable

def numberAlphabet : List Char := "0123456789+-.enul".toList

theorem digitsAlphabet (n : Nat) : Nat.toDigits 10 n ⊆ numberAlphabet := by
  have digit : ∀ n < 10, Nat.digitChar n ∈ numberAlphabet := by decide
  have single (n : Nat) (below : n < 10) : [Nat.digitChar n] ⊆ numberAlphabet :=
    List.cons_subset.mpr ⟨digit n below, List.nil_subset _⟩
  induction n using Nat.strongRecOn with
  | ind n ih =>
    by_cases below : n < 10
    · rw [Nat.toDigits_of_lt_base below]
      exact single n below
    · rw [Nat.toDigits_of_base_le (by decide) (Nat.le_of_not_lt below)]
      exact List.append_subset.mpr ⟨ih (n / 10) (by omega), single _ (Nat.mod_lt n (by decide))⟩

theorem zerosAlphabet (n : Nat) : List.replicate n '0' ⊆ numberAlphabet := by
  intro c mem
  rw [List.eq_of_mem_replicate mem]
  decide

namespace NumberLayout

theorem inFullAlphabet (layout : NumberLayout) {digits : List Char} (sub : digits ⊆ numberAlphabet)
    (point : Int) : layout.inFull digits point ⊆ numberAlphabet := by
  unfold inFull
  split
  · exact List.cons_subset.mpr ⟨by decide, List.cons_subset.mpr
      ⟨by decide, List.append_subset.mpr ⟨zerosAlphabet _, sub⟩⟩⟩
  · split
    · refine List.append_subset.mpr ⟨List.append_subset.mpr ⟨sub, zerosAlphabet _⟩, ?_⟩
      split <;> decide
    · refine List.append_subset.mpr ⟨List.Subset.trans (List.take_subset _ _) sub, ?_⟩
      exact List.cons_subset.mpr ⟨by decide, List.Subset.trans (List.drop_subset _ _) sub⟩

theorem scientificAlphabet {digits : List Char} (sub : digits ⊆ numberAlphabet) (point : Int) :
    scientific digits point ⊆ numberAlphabet := by
  have tail : digits.drop 1 ⊆ numberAlphabet := List.Subset.trans (List.drop_subset _ _) sub
  unfold scientific
  refine List.append_subset.mpr ⟨List.append_subset.mpr ⟨List.Subset.trans (List.take_subset _ _) sub, ?_⟩, ?_⟩
  · split
    · exact List.nil_subset _
    · exact List.cons_subset.mpr ⟨by decide, tail⟩
  · refine List.cons_subset.mpr ⟨by decide, List.cons_subset.mpr ⟨?_, digitsAlphabet _⟩⟩
    split <;> decide

theorem magnitudeAlphabet (layout : NumberLayout) (f : Format) (m : Nat) :
    layout.magnitude f m ⊆ numberAlphabet := by
  unfold magnitude
  split
  · split <;> decide
  · dsimp only
    split
    · exact layout.inFullAlphabet (digitsAlphabet _) _
    · exact scientificAlphabet (digitsAlphabet _) _

theorem finiteAlphabet (layout : NumberLayout) {f : Format} (x : Binary f) :
    (layout.finite? x).getD "null".toList ⊆ numberAlphabet := by
  have null : "null".toList ⊆ numberAlphabet := by decide
  cases x with
  | nan => exact null
  | infinite s => exact null
  | finite s m fits =>
    refine List.append_subset.mpr ⟨?_, layout.magnitudeAlphabet f m⟩
    cases s <;> decide

end NumberLayout

namespace Json
open Printable

theorem numberCharacters (n : Number) : numberChars n ⊆ numberAlphabet := by
  cases n with
  | integer n =>
    cases n with
    | ofNat n => exact digitsAlphabet n
    | negSucc n => exact List.cons_subset.mpr ⟨by decide, digitsAlphabet _⟩
  | double x => exact NumberLayout.finiteAlphabet _ x
  | single x => exact NumberLayout.finiteAlphabet _ x

theorem numberPrintable (n : Number) : Printable (numberChars n) := by
  have alphabet : Printable numberAlphabet := by decide
  exact fun c mem => alphabet c (numberCharacters n mem)

theorem hexPrintable : ∀ n < 32, Printable (twoHexDigits n) := by decide

theorem escapePrintable (c : Char) : Printable (escapeChar c) := by
  unfold escapeChar
  split
  case h_8 =>
    split
    · rename_i control
      exact cons (by decide) (cons (by decide) (cons (by decide) (cons (by decide)
        (hexPrintable _ control))))
    · rename_i shown
      exact cons (Nat.le_of_not_lt shown) nil
  all_goals decide

theorem stringPrintable (s : String) : Printable (stringChars s) := by
  refine cons (by decide) (append ?_ (by decide))
  intro d mem
  obtain ⟨c, _, escaped⟩ := List.mem_flatMap.mp mem
  exact escapePrintable c d escaped

mutual

theorem compactPrintable : ∀ j : Json, Printable (compactChars j)
  | .null => by decide
  | .bool true => by decide
  | .bool false => by decide
  | .number n => numberPrintable n
  | .string s => stringPrintable s
  | .array items => cons (by decide) (append (itemsPrintable items) (by decide))
  | .object fields => cons (by decide) (append (fieldsPrintable fields) (by decide))

theorem itemsPrintable : ∀ items : List Json, Printable (compactItems items)
  | [] => nil
  | [x] => compactPrintable x
  | x :: y :: rest => append (compactPrintable x) (cons (by decide) (itemsPrintable (y :: rest)))

theorem fieldsPrintable : ∀ fields : List (String × Json), Printable (compactFields fields)
  | [] => nil
  | [(k, x)] => append (stringPrintable k) (cons (by decide) (compactPrintable x))
  | (k, x) :: y :: rest => append (stringPrintable k) (cons (by decide)
      (append (compactPrintable x) (cons (by decide) (fieldsPrintable (y :: rest)))))

end

end Json
end MetricUnits

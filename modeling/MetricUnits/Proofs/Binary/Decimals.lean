import MetricUnits.Binary.Decimal
import MetricUnits.Proofs.Binary.Rounding

/-! Decimals read into a format. What is read depends on the value of a decimal alone, not on how it is
split into coefficient and exponent, and the shortest decimal of a number reads back as that number. -/
namespace MetricUnits

theorem digitCountTen {c : Nat} (nonzero : c ≠ 0) : digitCount (c * 10) = digitCount c + 1 := by
  have digits := Nat.toDigits_append_toDigits (b := 10) (n := c) (d := 0) (by decide)
    (Nat.pos_of_ne_zero nonzero) (by decide)
  rw [digitCount, Nat.mul_comm, ← Nat.add_zero (10 * c), ← digits, List.length_append]
  rfl

theorem digitCountPos (c : Nat) : 0 < digitCount c := Nat.length_toDigits_pos

theorem digitCountLe {c k : Nat} (pos : 0 < k) (less : c < 10 ^ k) : digitCount c ≤ k :=
  (Nat.length_toDigits_le_iff (by decide) pos).mpr less

namespace Decimal
variable {f : Format}

/- The number nearest to a decimal, were no decimal too small or too large to be worth computing. -/
def rounded (f : Format) (negative : Bool) (c : Nat) (e : Int) : Binary f :=
  if e < 0 then .round f negative (c * f.one) (Nat.pow 10 (-e).toNat)
  else .round f negative (c * Nat.pow 10 e.toNat * f.one) 1

theorem roundedTen (f : Format) (negative : Bool) (c : Nat) (e : Int) :
    rounded f negative (c * 10) (e - 1) = rounded f negative c e := by
  unfold rounded
  by_cases fraction : e < 0
  · have next : (-(e - 1)).toNat = (-e).toNat + 1 := by omega
    have power : Nat.pow 10 (-(e - 1)).toNat = Nat.pow 10 (-e).toNat * 10 := by
      rw [next]
      rfl
    rw [if_pos (by omega), if_pos fraction, power, Nat.mul_right_comm]
    exact Binary.roundMul f negative _ _ (by decide)
  · rw [if_neg fraction]
    by_cases whole : e = 0
    · subst whole
      have ten : c * 10 * f.one = c * f.one * 10 := Nat.mul_right_comm _ _ _
      have unit : c * Nat.pow 10 (0 : Int).toNat * f.one = c * f.one := by simp
      rw [if_pos (by decide), ten, unit]
      exact Binary.roundMul f negative (c * f.one) 1 (by decide)
    · have next : e.toNat = (e - 1).toNat + 1 := by omega
      have power : c * 10 * Nat.pow 10 (e - 1).toNat = c * Nat.pow 10 e.toNat := by
        rw [next, Nat.mul_assoc, Nat.mul_comm 10]
        rfl
      rw [if_neg (by omega), power]

theorem toBinaryRounded (f : Format) (negative : Bool) (c : Nat) (e : Int) :
    toBinary f negative ⟨c, e⟩ =
      if c = 0 ∨ (digitCount c : Int) + e < -f.depth then .zero negative
      else if (digitCount c : Int) + e > f.height + 1 then .infinite negative
      else rounded f negative c e := rfl

theorem toBinaryTen (f : Format) (negative : Bool) (c : Nat) (e : Int) :
    toBinary f negative ⟨c * 10, e - 1⟩ = toBinary f negative ⟨c, e⟩ := by
  rw [toBinaryRounded, toBinaryRounded, roundedTen]
  by_cases zero : c = 0
  · simp [zero]
  · have top : (digitCount (c * 10) : Int) + (e - 1) = digitCount c + e := by
      rw [digitCountTen zero]
      omega
    have nonzero : c * 10 ≠ 0 := by omega
    simp only [top, zero, nonzero]

theorem toBinaryShift (f : Format) (negative : Bool) (c k : Nat) (e : Int) :
    toBinary f negative ⟨c * 10 ^ k, e - k⟩ = toBinary f negative ⟨c, e⟩ := by
  induction k with
  | zero => simp
  | succ k ih =>
    rw [← ih, ← toBinaryTen f negative (c * 10 ^ k), Nat.pow_succ, Nat.mul_assoc]
    congr 2
    omega

theorem roundSign {n d m : Nat} (steps : (Binary.round f false n d).steps = m) (nonzero : m ≠ 0)
    (negative : Bool) : ∃ fits, Binary.round f negative n d = .finite negative m fits := by
  unfold Binary.round at steps ⊢
  split at steps
  · rename_i below
    obtain rfl : f.roundMagnitude n d = m := Int.ofNat.inj steps
    exact ⟨_, dif_pos below⟩
  · exact absurd (Int.ofNat.inj steps).symm nonzero

theorem toBinarySign {d : Decimal} {m : Nat} (steps : (d.toBinary f false).steps = m) (nonzero : m ≠ 0)
    (negative : Bool) : ∃ fits, d.toBinary f negative = .finite negative m fits := by
  rw [toBinaryRounded] at steps ⊢
  split at steps
  · exact absurd (Int.ofNat.inj steps).symm nonzero
  · rename_i seen
    rw [if_neg seen]
    split at steps
    · exact absurd (Int.ofNat.inj steps).symm nonzero
    · rename_i small
      rw [if_neg small]
      unfold rounded at steps ⊢
      split at steps
      · rename_i fraction
        rw [if_pos fraction]
        exact roundSign steps nonzero negative
      · rename_i whole
        rw [if_neg whole]
        exact roundSign steps nonzero negative

theorem roundedExact (f : Format) (m : Nat) :
    rounded f false (m * Nat.pow 5 f.depth) (-f.depth) = .round f false m 1 := by
  unfold rounded
  by_cases whole : f.depth = 0
  · have unit : f.one = 1 := by rw [Format.one, whole]; rfl
    rw [whole, unit, if_neg (by decide)]
    simp
  · have tenths : m * Nat.pow 5 f.depth * f.one = m * 10 ^ f.depth := by
      rw [Format.one, Nat.one_shiftLeft, Nat.mul_assoc]
      exact congrArg (m * ·) (Nat.mul_pow 5 2 f.depth).symm
    have exponent : (- -(f.depth : Int)).toNat = f.depth := by omega
    have unit : Nat.pow 10 f.depth = 1 * 10 ^ f.depth := (Nat.one_mul _).symm
    rw [if_pos (by omega), tenths, exponent, unit]
    exact Binary.roundMul f false m 1 (Nat.pow_pos (by decide))

theorem ofMagnitudeReadsBack {m : Nat} (fits : f.Fits m) (nonzero : m ≠ 0) :
    ((ofMagnitude f m).toBinary f false).steps = m := by
  have below : m < 2 ^ f.height := by
    have := fits.below
    rwa [Format.limit, Nat.one_shiftLeft] at this
  have coefficient : m * Nat.pow 5 f.depth ≠ 0 :=
    Nat.mul_ne_zero nonzero (Nat.ne_of_gt (Nat.pow_pos (by decide)))
  have height : 0 < f.height := by
    refine Nat.pos_of_ne_zero fun zero => ?_
    rw [zero] at below
    omega
  -- the decimal is not so large that it would be taken for an infinity unseen
  have digits : digitCount (m * Nat.pow 5 f.depth) ≤ f.height + f.depth := by
    refine digitCountLe (by omega) ?_
    calc m * Nat.pow 5 f.depth
        < 2 ^ f.height * 5 ^ f.depth := Nat.mul_lt_mul_of_pos_right below (Nat.pow_pos (by decide))
      _ ≤ 10 ^ f.height * 10 ^ f.depth :=
          Nat.mul_le_mul (Nat.pow_le_pow_left (by decide) _) (Nat.pow_le_pow_left (by decide) _)
      _ = 10 ^ (f.height + f.depth) := (Nat.pow_add ..).symm
  have positive := digitCountPos (m * Nat.pow 5 f.depth)
  have rounds : (Binary.round f false m 1).steps = m := by
    unfold Binary.round
    rw [dif_pos (by rw [Format.roundMagnitudeFits fits]; exact fits.below)]
    exact congrArg Int.ofNat (Format.roundMagnitudeFits fits)
  rw [ofMagnitude, toBinaryRounded, if_neg (by omega), if_neg (by omega), roundedExact]
  exact rounds

theorem nearerNeighbour (tie : Tie) (digits : Nat) (d : Decimal) :
    nearer tie digits d = (neighbours digits d).1 ∨ nearer tie digits d = (neighbours digits d).2 := by
  unfold nearer
  dsimp only
  split
  · exact .inl rfl
  · split
    · exact .inr rfl
    · split
      · exact .inr rfl
      · split
        · exact .inl rfl
        · exact .inr rfl

theorem readsBackSound {tie : Tie} {m digits : Nat} {d : Decimal}
    (reads : readsBack? f tie m digits = some d) : (d.toBinary f false).steps = m := by
  unfold readsBack? at reads
  dsimp only at reads
  split at reads
  · rename_i low high
    -- both neighbours read back, so either of them may be the nearer one
    obtain rfl := Option.some.inj reads
    rcases nearerNeighbour tie digits (ofMagnitude f m) with same | same
    · rw [same]
      exact eq_of_beq low
    · rw [same]
      exact eq_of_beq high
  · rename_i low _
    obtain rfl := Option.some.inj reads
    exact eq_of_beq low
  · rename_i _ high
    obtain rfl := Option.some.inj reads
    exact eq_of_beq high
  · contradiction

theorem trimReads (f : Format) (negative : Bool) (c : Nat) (e : Int) :
    (trim c e).toBinary f negative = toBinary f negative ⟨c, e⟩ := by
  fun_induction trim c e with
  | case1 c e more ih =>
    have ten : c / 10 * 10 = c := by omega
    rw [ih, ← toBinaryTen, ten, Int.add_sub_cancel]
  | case2 c e done => rfl

theorem shortestReadsBack (tie : Tie) {m : Nat} (fits : f.Fits m) (nonzero : m ≠ 0) :
    ((shortest f tie m).toBinary f false).steps = m := by
  unfold shortest
  rw [trimReads]
  cases found : (List.range f.precision).findSome? fun n => readsBack? f tie m (n + 1) with
  | none => exact ofMagnitudeReadsBack fits nonzero
  | some d =>
    obtain ⟨n, _, reads⟩ := List.exists_of_findSome?_eq_some found
    exact readsBackSound reads

end Decimal
end MetricUnits

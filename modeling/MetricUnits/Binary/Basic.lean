/-! Binary floating-point numbers of any precision. A finite number is a sign and a whole number of
least steps, so two finite numbers are equal exactly when sign and count agree. -/
namespace MetricUnits

structure Format where
  precision : Nat
  exponentBits : Nat
  precision_pos : 0 < precision
  deriving DecidableEq, Repr

namespace Format

def double : Format := ⟨53, 11, by decide⟩
def single : Format := ⟨24, 8, by decide⟩

/- How often one is halved down to the least positive number, in which magnitudes are counted. -/
def depth (f : Format) : Nat := (1 <<< (f.exponentBits - 1)) + f.precision - 3

def height (f : Format) : Nat := (1 <<< f.exponentBits) + f.precision - 3

def one (f : Format) : Nat := 1 <<< f.depth

def limit (f : Format) : Nat := 1 <<< f.height

def spacing (f : Format) (magnitude : Nat) : Nat := magnitude.log2 + 1 - f.precision

def step (f : Format) (magnitude : Nat) : Nat := 1 <<< f.spacing magnitude

structure Fits (f : Format) (magnitude : Nat) : Prop where
  below : magnitude < f.limit
  aligned : f.step magnitude ∣ magnitude

instance (f : Format) (m : Nat) : Decidable (f.Fits m) :=
  if h : m < f.limit ∧ f.step m ∣ m then isTrue ⟨h.1, h.2⟩
  else isFalse fun fits => h ⟨fits.below, fits.aligned⟩

theorem oneShiftLeftPos (n : Nat) : 0 < 1 <<< n := by
  rw [Nat.one_shiftLeft]; exact Nat.two_pow_pos n

theorem onePos (f : Format) : 0 < f.one := oneShiftLeftPos _

theorem limitPos (f : Format) : 0 < f.limit := oneShiftLeftPos _

theorem stepPos (f : Format) (m : Nat) : 0 < f.step m := oneShiftLeftPos _

theorem fitsZero (f : Format) : f.Fits 0 := ⟨f.limitPos, Nat.dvd_zero _⟩

end Format

inductive Binary (f : Format)
  | nan
  | infinite (negative : Bool)
  | finite (negative : Bool) (magnitude : Nat) (fits : f.Fits magnitude)
  deriving DecidableEq, Repr

abbrev Double := Binary .double
abbrev Single := Binary .single

namespace Binary
variable {f : Format}

def zero (negative : Bool) : Binary f := .finite negative 0 f.fitsZero

instance : Inhabited (Binary f) := ⟨zero false⟩

def isFinite : Binary f → Bool
  | .finite .. => true
  | _ => false

def steps : Binary f → Int
  | .finite true m _ => -m
  | .finite false m _ => m
  | _ => 0

/- Equality of values: a zero equals either zero, and `nan` equals nothing. -/
def sameValue : Binary f → Binary f → Bool
  | .finite s m h, .finite t n k => (Binary.finite s m h).steps == (Binary.finite t n k).steps
  | .infinite s, .infinite t => s == t
  | _, _ => false

end Binary

def nearest (n d : Nat) : Nat :=
  if 2 * (n % d) < d ∨ 2 * (n % d) = d ∧ n / d % 2 = 0 then n / d else n / d + 1

theorem nearestLe (n d : Nat) : nearest n d ≤ n / d + 1 := by
  unfold nearest; split <;> omega

theorem nearestMul (n : Nat) {d : Nat} (h : 0 < d) : nearest (n * d) d = n := by
  simp [nearest, Nat.mul_div_cancel _ h, h]

namespace Format

def roundMagnitude (f : Format) (n d : Nat) : Nat :=
  nearest n (d * f.step (n / d)) * f.step (n / d)

theorem stepDvdShiftLeft (f : Format) {k : Nat} (h : k ≤ 1 <<< f.precision) (s : Nat) :
    f.step (k <<< s) ∣ k <<< s := by
  have pos := f.precision_pos
  simp only [step, Nat.one_shiftLeft, Nat.shiftLeft_eq k] at h ⊢
  by_cases zero : k * 2 ^ s = 0
  · rw [zero]; exact Nat.dvd_zero _
  by_cases full : k = 2 ^ f.precision
  · rw [full, ← Nat.pow_add, spacing, Nat.log2_two_pow]
    exact Nat.pow_dvd_pow 2 (by omega)
  · have small : k * 2 ^ s < 2 ^ (f.precision + s) := by
      rw [Nat.pow_add]
      exact Nat.mul_lt_mul_of_pos_right (by omega) (Nat.two_pow_pos s)
    have := (Nat.log2_lt zero).2 small
    exact Nat.dvd_trans (Nat.pow_dvd_pow 2 (by unfold spacing; omega)) (Nat.dvd_mul_left _ _)

theorem stepDvdRoundMagnitude (f : Format) (n d : Nat) :
    f.step (f.roundMagnitude n d) ∣ f.roundMagnitude n d := by
  have shifted : f.roundMagnitude n d = nearest n (d * f.step (n / d)) <<< f.spacing (n / d) := by
    rw [roundMagnitude, step, Nat.one_shiftLeft, Nat.shiftLeft_eq]
  rw [shifted]
  refine f.stepDvdShiftLeft (Nat.le_trans (nearestLe _ _) ?_) _
  rw [← Nat.div_div_eq_div_mul]
  refine (Nat.div_lt_iff_lt_mul (f.stepPos _)).2 ?_
  rw [step, Nat.one_shiftLeft, Nat.one_shiftLeft, ← Nat.pow_add]
  exact Nat.lt_of_lt_of_le Nat.lt_log2_self
    (Nat.pow_le_pow_right (by decide) (by unfold spacing; omega))

end Format

namespace Binary

def round (f : Format) (negative : Bool) (n d : Nat) : Binary f :=
  if h : f.roundMagnitude n d < f.limit then
    .finite negative _ ⟨h, f.stepDvdRoundMagnitude n d⟩
  else .infinite negative

variable {f g : Format}

def ofSteps (f : Format) (zeroSign : Bool) (n : Int) : Binary f :=
  if n = 0 then zero zeroSign else round f (n < 0) n.natAbs 1

def ofInt (f : Format) (n : Int) : Binary f := round f (n < 0) (n.natAbs * f.one) 1

def ofNat (f : Format) (n : Nat) : Binary f := ofInt f n

def neg : Binary f → Binary f
  | .nan => .nan
  | .infinite s => .infinite (!s)
  | .finite s m h => .finite (!s) m h

def add : Binary f → Binary f → Binary f
  | .nan, _ | _, .nan => .nan
  | .infinite s, .infinite t => if s = t then .infinite s else .nan
  | .infinite s, _ => .infinite s
  | _, .infinite t => .infinite t
  | .finite s m h, .finite t n k =>
      ofSteps f (s && t) ((Binary.finite s m h).steps + (Binary.finite t n k).steps)

def sub (x y : Binary f) : Binary f := add x (neg y)

def mul : Binary f → Binary f → Binary f
  | .nan, _ | _, .nan => .nan
  | .infinite s, .infinite t => .infinite (s ^^ t)
  | .infinite s, .finite t n _ => if n = 0 then .nan else .infinite (s ^^ t)
  | .finite s m _, .infinite t => if m = 0 then .nan else .infinite (s ^^ t)
  | .finite s m _, .finite t n _ => round f (s ^^ t) (m * n) f.one

def div : Binary f → Binary f → Binary f
  | .nan, _ | _, .nan => .nan
  | .infinite _, .infinite _ => .nan
  | .infinite s, .finite t _ _ => .infinite (s ^^ t)
  | .finite s _ _, .infinite t => zero (s ^^ t)
  | .finite s m _, .finite t n _ =>
      if n = 0 then if m = 0 then .nan else .infinite (s ^^ t)
      else round f (s ^^ t) (m * f.one) n

instance : Neg (Binary f) := ⟨neg⟩
instance : Add (Binary f) := ⟨add⟩
instance : Sub (Binary f) := ⟨sub⟩
instance : Mul (Binary f) := ⟨mul⟩
instance : Div (Binary f) := ⟨div⟩

def convert (g : Format) : Binary f → Binary g
  | .nan => .nan
  | .infinite s => .infinite s
  | .finite s m _ => round g s (m * g.one) f.one

def clamp (lo hi n : Int) : Int := max lo (min hi n)

theorem clampMem {lo hi : Int} (h : lo ≤ hi) (n : Int) : lo ≤ clamp lo hi n ∧ clamp lo hi n ≤ hi := by
  unfold clamp; omega

def wholePart (f : Format) (negative : Bool) (magnitude : Nat) : Int :=
  let whole : Nat := magnitude / f.one
  if negative then -whole else whole

/- Truncated toward zero into `lo … hi`: values beyond stay at the bound, and `nan` gives zero. -/
def truncate (lo hi : Int) : Binary f → Int
  | .nan => 0
  | .infinite true => lo
  | .infinite false => hi
  | .finite s m _ => clamp lo hi (wholePart f s m)

theorem truncateMem {lo hi : Int} (low : lo ≤ 0) (high : 0 ≤ hi) (x : Binary f) :
    lo ≤ x.truncate lo hi ∧ x.truncate lo hi ≤ hi := by
  unfold truncate
  split
  · exact ⟨low, high⟩
  · exact ⟨Int.le_refl _, Int.le_trans low high⟩
  · exact ⟨Int.le_trans low high, Int.le_refl _⟩
  · exact clampMem (Int.le_trans low high) _

end Binary

end MetricUnits

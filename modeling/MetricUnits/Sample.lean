import MetricUnits.Binary.Decimal

/-! The primitive numbers that a conversion is applied to, widened to double precision and cut back to
what they were, and samples: metric values in one of the representations in which they arrive. -/
namespace MetricUnits

inductive IntegerType
  | int8 | int16 | int32 | int64 | int128 | isize
  | uint8 | uint16 | uint32 | uint64 | uint128 | usize
  deriving DecidableEq, Repr

namespace IntegerType

def isSigned : IntegerType → Bool
  | int8 | int16 | int32 | int64 | int128 | isize => true
  | _ => false

/- Bits of a value; the pointer sizes have 64. -/
def bits : IntegerType → Nat
  | int8 | uint8 => 8
  | int16 | uint16 => 16
  | int32 | uint32 => 32
  | int64 | uint64 | isize | usize => 64
  | int128 | uint128 => 128

def least (t : IntegerType) : Int := if t.isSigned then -(1 <<< (t.bits - 1) : Nat) else 0

def greatest (t : IntegerType) : Int :=
  if t.isSigned then (1 <<< (t.bits - 1) : Nat) - 1 else (1 <<< t.bits : Nat) - 1

theorem leastLe (t : IntegerType) : t.least ≤ 0 := by cases t <;> decide

theorem greatestGe (t : IntegerType) : 0 ≤ t.greatest := by cases t <;> decide

def Holds (t : IntegerType) (n : Int) : Prop := t.least ≤ n ∧ n ≤ t.greatest

instance (t : IntegerType) (n : Int) : Decidable (t.Holds n) :=
  inferInstanceAs (Decidable (_ ∧ _))

structure Value (t : IntegerType) where
  val : Int
  holds : t.Holds val
  deriving DecidableEq, Repr

end IntegerType

inductive Representation
  | float64
  | float32
  | integer (type : IntegerType)
  deriving DecidableEq, Repr

namespace Representation

abbrev Value : Representation → Type
  | float64 => Double
  | float32 => Single
  | integer t => t.Value

instance decidableEqValue : (r : Representation) → DecidableEq r.Value
  | float64 => inferInstanceAs (DecidableEq Double)
  | float32 => inferInstanceAs (DecidableEq Single)
  | integer t => inferInstanceAs (DecidableEq t.Value)

def widen : (r : Representation) → r.Value → Double
  | float64, (x : Double) => x
  | float32, (x : Single) => x.convert .double
  | integer _, (n : IntegerType.Value _) => .ofInt .double n.val

def narrow : (r : Representation) → Double → r.Value
  | float64, x => x
  | float32, x => (x.convert .single : Single)
  | integer t, x => (⟨x.truncate t.least t.greatest,
      Binary.truncateMem t.leastLe t.greatestGe x⟩ : t.Value)

def through (r : Representation) (g : Double → Double) (x : r.Value) : r.Value :=
  r.narrow (g (r.widen x))

end Representation

def Representation.text : (r : Representation) → r.Value → String
  | float64, (x : Double) => x.plainText
  | float32, (x : Single) => x.plainText
  | integer _, (n : IntegerType.Value _) => String.ofList (Decimal.integerDigits n.val)

inductive SampleType
  | float64 | float32 | int32 | int64 | uint32 | uint64 | isize | usize
  deriving DecidableEq, Repr

namespace SampleType

def all : List SampleType := [float64, float32, int32, int64, uint32, uint64, isize, usize]

def representation : SampleType → Representation
  | float64 => .float64
  | float32 => .float32
  | int32 => .integer .int32
  | int64 => .integer .int64
  | uint32 => .integer .uint32
  | uint64 => .integer .uint64
  | isize => .integer .isize
  | usize => .integer .usize

def tag : SampleType → String
  | float64 => "f64" | float32 => "f32"
  | int32 => "i32" | int64 => "i64" | uint32 => "u32" | uint64 => "u64"
  | isize => "isize" | usize => "usize"

def isInteger (t : SampleType) : Bool :=
  match t.representation with
  | .integer _ => true
  | _ => false

end SampleType

structure Sample where
  type : SampleType
  value : type.representation.Value
  deriving DecidableEq

namespace Sample

def ofDouble (x : Double) : Sample := ⟨.float64, x⟩

def ofSingle (x : Single) : Sample := ⟨.float32, x⟩

def int64 (n : IntegerType.int64.Value) : Sample := ⟨.int64, n⟩

def uint64 (n : IntegerType.uint64.Value) : Sample := ⟨.uint64, n⟩

def toDouble (s : Sample) : Double := s.type.representation.widen s.value

def map (g : Double → Double) (s : Sample) : Sample :=
  ⟨s.type, s.type.representation.through g s.value⟩

def text (s : Sample) : String := s.type.representation.text s.value

end Sample

end MetricUnits

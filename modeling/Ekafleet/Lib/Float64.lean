import Mathlib.Tactic

/-! An interface to double-precision arithmetic.

    Programs that only compare the results of floating-point computations can be verified for
    every arithmetic at once: `F64 F` names the operations, says nothing about rounding, and a
    theorem over all `F` covers the IEEE one. `Ratio` is an exact instance that evaluates. -/

/-- The operations of a 64-bit float type. The comparisons are the partial ones: both are `false`
    when an argument is not a number. -/
class F64 (F : Type) extends Add F, Sub F, Mul F, Div F where
  ofNat : ℕ → F
  ofInt : ℤ → F
  abs : F → F
  lt : F → F → Bool
  le : F → F → Bool
  /-- The value a decimal text denotes, if it is one. -/
  parse : String → Option F
  /-- Round up and convert to 32 bits; what does not fit becomes the nearest bound. -/
  ceilU32 : F → UInt32

/-- Unreduced fractions `num / (den + 1)`. -/
structure Ratio where
  num : ℤ
  den : ℕ
  deriving DecidableEq, Repr

namespace Ratio

def ofInt (z : ℤ) : Ratio := ⟨z, 0⟩

/-- The denominator as an integer. -/
def d (a : Ratio) : ℤ := a.den + 1

def add (a b : Ratio) : Ratio := ⟨a.num * b.d + b.num * a.d, (a.den + 1) * (b.den + 1) - 1⟩

def sub (a b : Ratio) : Ratio := ⟨a.num * b.d - b.num * a.d, (a.den + 1) * (b.den + 1) - 1⟩

def mul (a b : Ratio) : Ratio := ⟨a.num * b.num, (a.den + 1) * (b.den + 1) - 1⟩

/-- Division, `0` on a zero divisor. -/
def div (a b : Ratio) : Ratio :=
  ⟨a.num * b.d * b.num.sign, (a.den + 1) * b.num.natAbs - 1⟩

def lt (a b : Ratio) : Bool := decide (a.num * b.d < b.num * a.d)

def le (a b : Ratio) : Bool := decide (a.num * b.d ≤ b.num * a.d)

instance : F64 Ratio where
  add := add
  sub := sub
  mul := mul
  div := div
  ofNat n := ofInt n
  ofInt := ofInt
  abs a := ⟨a.num.natAbs, a.den⟩
  lt := lt
  le := le
  parse s := s.toNat?.map fun n => ofInt n
  ceilU32 a := UInt32.ofNat (min ((a.num.toNat + a.den) / (a.den + 1)) (2 ^ 32 - 1))

end Ratio

import Mathlib

/-!
# Binary floating-point numbers by their bits

A number is the bit pattern of an interchange format. Comparison is that of the
standard: a NaN is comparable with nothing, and the zeros of both signs are equal.
-/

namespace TeoDB.Lib

/-- The widths of the exponent and the trailing significand of a format. -/
structure FloatFormat where
  exponentBits : Nat
  fractionBits : Nat
deriving DecidableEq

namespace FloatFormat

def binary32 : FloatFormat := ⟨8, 23⟩

def binary64 : FloatFormat := ⟨11, 52⟩

def width (format : FloatFormat) : Nat := 1 + format.exponentBits + format.fractionBits

end FloatFormat

/-- A number of a format. -/
structure FloatBits (format : FloatFormat) where
  bits : BitVec format.width
deriving DecidableEq

namespace FloatBits

variable {format : FloatFormat} (x y : FloatBits format)

/-- The number without its sign. -/
def magnitude : Nat := x.bits.toNat % 2 ^ (format.exponentBits + format.fractionBits)

/-- The magnitude of the infinities. All larger ones are those of NaNs. -/
def infinity (format : FloatFormat) : Nat :=
  (2 ^ format.exponentBits - 1) * 2 ^ format.fractionBits

def isNaN : Bool := decide (infinity format < x.magnitude)

def isFinite : Bool := decide (x.magnitude < infinity format)

/-- An integer in the order of the numbers. -/
def rank : Int := if x.bits.msb then -(x.magnitude : Int) else x.magnitude

def partialCmp : Option Ordering :=
  if x.isNaN || y.isNaN then none else some (compare x.rank y.rank)

/-- The equality of the standard. -/
def eq : Bool := x.partialCmp y == some .eq

lemma isNaN_eq_false_of_isFinite {x : FloatBits format} (h : x.isFinite = true) :
    x.isNaN = false := by
  simp only [isFinite, decide_eq_true_eq] at h
  simp only [isNaN, decide_eq_false_iff_not]
  omega

end FloatBits

end TeoDB.Lib

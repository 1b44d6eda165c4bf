import TeoDB.Lib.Ieee

/-!
# Typed scalars

The values of bounds and partitions. Scalars of different types are not comparable,
nor are decimals of different precision or scale, timestamps of different zones and
fixed binaries of different length.
-/

namespace TeoDB.Core

open Lib

abbrev F32 := FloatBits FloatFormat.binary32

abbrev F64 := FloatBits FloatFormat.binary64

/-- Signed numbers of 128 bits. -/
abbrev I128 := BitVec 128

inductive TeoScalar where
  | null
  | boolean (v : Bool)
  | int8 (v : Int8)
  | int16 (v : Int16)
  | int32 (v : Int32)
  | int64 (v : Int64)
  | uint8 (v : UInt8)
  | uint16 (v : UInt16)
  | uint32 (v : UInt32)
  | uint64 (v : UInt64)
  | float32 (v : F32)
  | float64 (v : F64)
  | decimal128 (value : I128) (precision : UInt8) (scale : Int8)
  | date32 (v : Int32)
  | timestampMicros (value : Int64) (tz : Option String)
  | time64Micros (v : Int64)
  | utf8 (v : String)
  | binary (v : List UInt8)
  | fixedSizeBinary (v : List UInt8)
deriving DecidableEq

namespace TeoScalar

def isNull : TeoScalar → Bool
  | null => true
  | _ => false

/-- The derived equality, which is the standard's for floating-point numbers. -/
def eq : TeoScalar → TeoScalar → Bool
  | float32 a, float32 b => a.eq b
  | float64 a, float64 b => a.eq b
  | a, b => decide (a = b)

instance : BEq TeoScalar := ⟨eq⟩

end TeoScalar

end TeoDB.Core

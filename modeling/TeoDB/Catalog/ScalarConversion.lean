import TeoDB.Core.Scalar
import TeoDB.Core.Schema
import TeoDB.Lib.DecimalText

/-!
# Scalars as Iceberg values

A table's types have fewer counterparts in Iceberg: small and unsigned integers become the
next signed type, and every zone becomes UTC. A scalar becomes a datum, a decimal by way of
its text, and a datum is read back with the type that the column has after its schema went
through Iceberg.

## Implementation notes

It is assumed that a time that passes the check is kept, and that a plain decimal text of up to 38
digits is read as it stands. A panic is the result `none`.
-/

namespace TeoDB.Catalog

open TeoDB.Core Lib

inductive PrimitiveType where
  | boolean
  | int
  | long
  | float
  | double
  | decimal (precision scale : Nat)
  | date
  | time
  | timestamp
  | timestamptz
  | timestampNs
  | timestamptzNs
  | string
  | uuid
  | fixed (length : Nat)
  | binary
deriving DecidableEq

inductive PrimitiveLiteral where
  | boolean (v : Bool)
  | int (v : Int32)
  | long (v : Int64)
  | float (v : F32)
  | double (v : F64)
  | string (v : String)
  | binary (v : List UInt8)
  | int128 (v : I128)
  | uint128 (v : BitVec 128)
  | aboveMax
  | belowMin
deriving DecidableEq

/-- A typed literal. -/
structure Datum where
  type : PrimitiveType
  literal : PrimitiveLiteral
deriving DecidableEq

/-- The digits that a decimal can have. -/
def maxDecimalDigits : Nat := 38

/-- The longest plain text of a decimal: a sign, a point and a zero before it. -/
def maxDecimalText : Nat := maxDecimalDigits + 3

/-- The functions of the Iceberg library that conversions use. -/
structure IcebergScalars where
  timeMicros : Int64 → Except String Datum
  decimalFromStr : String → Except String Datum
  debugLiteral : PrimitiveLiteral → String
  debugType : TeoDataType → String
  debugPrimitive : PrimitiveType → String
  timeMicros_literal : ∀ v d, timeMicros v = .ok d → d.literal = .long v
  decimalFromStr_literal : ∀ text m, DecimalText.mantissa text.toList = some m →
    text.toList.length ≤ maxDecimalText → m.natAbs < 10 ^ maxDecimalDigits →
      ∃ d, decimalFromStr text = .ok d ∧ d.literal = .int128 (BitVec.ofInt 128 m)

def teodbToIcebergPrimitive : TeoDataType → TeoDBResult PrimitiveType
  | .boolean => .ok .boolean
  | .int8 | .int16 | .int32 | .uint8 | .uint16 => .ok .int
  | .int64 | .uint32 | .uint64 => .ok .long
  | .float32 => .ok .float
  | .float64 => .ok .double
  | .date32 => .ok .date
  | .time64Micros => .ok .time
  | .timestampMicros none => .ok .timestamp
  | .timestampMicros (some _) => .ok .timestamptz
  | .utf8 => .ok .string
  | .binary => .ok .binary
  | .fixedSizeBinary size => .ok (if size = 16 then .uuid else .fixed (size % 2 ^ 64).toNat)
  | .decimal128 precision scale => .ok (.decimal precision (scale % 2 ^ 32).toNat)

variable (lib : IcebergScalars)

/-- The type of a column as it is read from Iceberg. -/
def icebergPrimitiveToTeodb : PrimitiveType → TeoDBResult TeoDataType
  | .boolean => .ok .boolean
  | .int => .ok .int32
  | .long => .ok .int64
  | .float => .ok .float32
  | .double => .ok .float64
  | .date => .ok .date32
  | .time => .ok .time64Micros
  | .timestamp => .ok (.timestampMicros none)
  | .timestamptz => .ok (.timestampMicros (some "UTC"))
  | .string => .ok .utf8
  | .binary => .ok .binary
  | .uuid => .ok (.fixedSizeBinary 16)
  | .fixed length => .ok (.fixedSizeBinary (Int.bmod length (2 ^ 32)))
  | .decimal precision scale => .ok (.decimal128 (precision % 2 ^ 8) (Int.bmod scale (2 ^ 8)))
  | other => .error (.invalidArgument "type"
      s!"unsupported Iceberg primitive type: {lib.debugPrimitive other}")

/-- The bytes of a 128-bit number, the highest first. -/
def toBeBytes (v : BitVec 128) : List UInt8 :=
  (List.range 16).map fun i => UInt8.ofNat (v.toNat / 256 ^ (15 - i))

def primitiveLiteralToTeoScalar (literal : PrimitiveLiteral)
    (dt : TeoDataType) : TeoDBResult TeoScalar :=
  match dt, literal with
  | .boolean, .boolean v => .ok (.boolean v)
  | .int8, .int v => .ok (.int8 v.toInt8)
  | .int16, .int v => .ok (.int16 v.toInt16)
  | .int32, .int v => .ok (.int32 v)
  | .uint8, .int v => .ok (.uint8 v.toUInt32.toUInt8)
  | .uint16, .int v => .ok (.uint16 v.toUInt32.toUInt16)
  | .uint32, .int v => .ok (.uint32 v.toUInt32)
  | .int64, .long v => .ok (.int64 v)
  | .uint64, .long v => .ok (.uint64 v.toUInt64)
  | .float32, .float v => .ok (.float32 v)
  | .float64, .double v => .ok (.float64 v)
  | .date32, .int v => .ok (.date32 v)
  | .time64Micros, .long v => .ok (.time64Micros v)
  | .timestampMicros tz, .long v => .ok (.timestampMicros v tz)
  | .utf8, .string v => .ok (.utf8 v)
  | .binary, .binary v => .ok (.binary v)
  | .fixedSizeBinary 16, .uint128 v => .ok (.fixedSizeBinary (toBeBytes v))
  | .fixedSizeBinary _, .binary v => .ok (.fixedSizeBinary v)
  | .decimal128 precision scale, .int128 v =>
    .ok (.decimal128 v (UInt8.ofNat precision) (Int8.ofInt scale))
  | dt, .aboveMax | dt, .belowMin => .error (.catalog
      s!"cannot convert iceberg sentinel literal {lib.debugLiteral literal} to {lib.debugType dt}")
  | dt, literal => .error (.catalog
      s!"cannot convert iceberg literal {lib.debugLiteral literal} to {lib.debugType dt}")

def datumToTeoScalar (datum : Datum) (dt : TeoDataType) :
    TeoDBResult TeoScalar :=
  primitiveLiteralToTeoScalar lib datum.literal dt

def i128Max : Nat := 2 ^ 127 - 1

/-- The text of a decimal with the given scale. -/
def formatI128Decimal (value : I128) (scale : Int8) : Option String :=
  if scale.toInt ≤ 0 then some (String.ofList (DecimalText.integer value.toInt))
  else
    let scale := scale.toInt.toNat
    if 10 ^ scale ≤ i128Max then
      let whole := value.toInt.tdiv (10 ^ scale)
      let frac := (value.toInt.tmod (10 ^ scale)).natAbs
      some (String.ofList (DecimalText.integer whole ++ '.' :: DecimalText.padded scale frac))
    else none

def teoScalarToDatum : TeoScalar → Option (TeoDBResult Datum)
  | .null => some (.error (.invalidArgument "scalar" "cannot convert Null TeoScalar to Datum"))
  | .boolean v => some (.ok ⟨.boolean, .boolean v⟩)
  | .int8 v => some (.ok ⟨.int, .int v.toInt32⟩)
  | .int16 v => some (.ok ⟨.int, .int v.toInt32⟩)
  | .int32 v => some (.ok ⟨.int, .int v⟩)
  | .uint8 v => some (.ok ⟨.int, .int (Int32.ofNat v.toNat)⟩)
  | .uint16 v => some (.ok ⟨.int, .int (Int32.ofNat v.toNat)⟩)
  | .uint32 v => some (.ok ⟨.long, .long (Int64.ofNat v.toNat)⟩)
  | .int64 v => some (.ok ⟨.long, .long v⟩)
  | .uint64 v => some (.ok ⟨.long, .long (Int64.ofNat v.toNat)⟩)
  | .float32 v => some (.ok ⟨.float, .float v⟩)
  | .float64 v => some (.ok ⟨.double, .double v⟩)
  | .date32 v => some (.ok ⟨.date, .int v⟩)
  | .time64Micros v =>
    some ((lib.timeMicros v).mapError fun e => .catalog s!"invalid time value: {e}")
  | .timestampMicros v tz =>
    some (.ok ⟨if tz.isSome then .timestamptz else .timestamp, .long v⟩)
  | .utf8 v => some (.ok ⟨.string, .string v⟩)
  | .binary v => some (.ok ⟨.binary, .binary v⟩)
  | .fixedSizeBinary v => some (.ok ⟨.fixed v.length, .binary v⟩)
  | .decimal128 value precision scale =>
    (formatI128Decimal value scale).map fun text =>
      (lib.decimalFromStr text).mapError fun e =>
        .catalog s!"decimal conversion error (p={precision},s={scale.toInt}): {e}"

/-- A negative number above minus one is written without its sign. -/
def LosesSign (value : I128) (scale : Int8) : Prop :=
  0 < scale.toInt ∧ value.toInt < 0 ∧ -(10 ^ scale.toInt.toNat) < value.toInt

instance (value : I128) (scale : Int8) : Decidable (LosesSign value scale) :=
  inferInstanceAs (Decidable (_ ∧ _ ∧ _))

/-- The values and scales that a precision allows. -/
structure DecimalAllowed (value : I128) (precision : UInt8) (scale : Int8) : Prop where
  precision_le : precision.toNat ≤ maxDecimalDigits
  scale_le : scale.toInt ≤ precision.toNat
  value_lt : value.toInt.natAbs < 10 ^ precision.toNat

lemma DecimalAllowed.value_lt_max {v : I128} {prec : UInt8} {sc : Int8}
    (h : DecimalAllowed v prec sc) : v.toInt.natAbs < 10 ^ maxDecimalDigits :=
  h.value_lt.trans_le (Nat.pow_le_pow_right (by decide) h.precision_le)

/-- Truncating division takes the sign of a number away if the quotient is zero. -/
theorem mantissa_tdiv_point (v : Int) {sc : Nat} (hscale : 0 < sc) :
    DecimalText.mantissa (DecimalText.integer (v.tdiv (10 ^ sc)) ++
        '.' :: DecimalText.padded sc (v.tmod (10 ^ sc)).natAbs) =
      some (if v < 0 ∧ -(10 ^ sc) < v then -v else v) := by
  have hpos : (0 : Int) < 10 ^ sc := by positivity
  have habs : ((10 : Int) ^ sc).natAbs = 10 ^ sc := by rw [Int.natAbs_pow]; rfl
  have hmod : (v.tmod (10 ^ sc)).natAbs < 10 ^ sc := by
    rw [Int.natAbs_tmod, habs]
    exact Nat.mod_lt _ (by positivity)
  have hmod' : ((v.tmod (10 ^ sc)).natAbs : Int) < 10 ^ sc := by exact_mod_cast hmod
  rw [DecimalText.mantissa_integer_point _ hscale hmod]
  congr 1
  have hsp := Int.mul_tdiv_add_tmod v (10 ^ sc)
  by_cases hneg : v < 0
  · have hr : v.tmod (10 ^ sc) ≤ 0 := by
      have hnon := Int.tmod_nonneg (10 ^ sc) (by omega : 0 ≤ -v)
      rw [Int.neg_tmod] at hnon
      omega
    by_cases hsma : -(10 ^ sc) < v
    · have hz : v.tdiv (10 ^ sc) = 0 := by
        apply Int.natAbs_eq_zero.mp
        rw [Int.natAbs_tdiv, habs]
        apply Nat.div_eq_of_lt
        zify
        rw [abs_of_neg hneg]
        omega
      rw [hz] at hsp ⊢
      simp only [lt_irrefl, if_false, hneg, hsma, and_self, if_true]
      omega
    · have hwho : v.tdiv (10 ^ sc) < 0 := by
        by_contra hnot
        have hle : 0 ≤ 10 ^ sc * v.tdiv (10 ^ sc) :=
          mul_nonneg hpos.le (not_lt.mp hnot)
        omega
      simp only [hwho, if_true, hsma, and_false, if_false]
      omega
  · have hwho : ¬ v.tdiv (10 ^ sc) < 0 := not_lt.mpr (Int.tdiv_nonneg (by omega) hpos.le)
    have hr : 0 ≤ v.tmod (10 ^ sc) := Int.tmod_nonneg _ (by omega)
    simp only [hwho, if_false, hneg, false_and]
    omega

lemma length_integer_le {i : Int} {k : Nat} (hk : 0 < k) (h : i.natAbs < 10 ^ k) :
    (DecimalText.integer i).length ≤ k + 1 := by
  have hdg := (Nat.length_toDigits_le_iff (by decide : 1 < 10) hk).mpr h
  rw [DecimalText.integer]
  split_ifs
  · simpa using hdg
  · omega

/-- Formatting does not panic, and the text is that of the value but for a lost sign. -/
theorem formatI128Decimal_spec {v : I128} {prec : UInt8} {sc : Int8}
    (h : DecimalAllowed v prec sc) :
    ∃ text, formatI128Decimal v sc = some text ∧ DecimalText.mantissa text.toList =
        some (if LosesSign v sc then -v.toInt else v.toInt) ∧
      text.toList.length ≤ maxDecimalText := by
  have hv := h.value_lt_max
  rw [formatI128Decimal]
  by_cases hsca : sc.toInt ≤ 0
  · have hs : ¬ LosesSign v sc := fun hlos => absurd hlos.1 (not_lt.mpr hsca)
    rw [if_pos hsca, if_neg hs]
    refine ⟨_, rfl, ?_, ?_⟩
    · rw [String.toList_ofList, DecimalText.mantissa_integer]
    · rw [String.toList_ofList]
      exact (length_integer_le (by decide) hv).trans (by decide)
  · have hle : sc.toInt.toNat ≤ maxDecimalDigits := by
      have hpre := h.precision_le
      have hsca := h.scale_le
      omega
    have hpos : 0 < sc.toInt.toNat := by omega
    have hf : 10 ^ sc.toInt.toNat ≤ i128Max :=
      (Nat.pow_le_pow_right (by decide) hle).trans (by decide)
    simp only [if_neg hsca, if_pos hf]
    refine ⟨_, rfl, ?_, ?_⟩
    · rw [String.toList_ofList, mantissa_tdiv_point _ hpos]
      congr 1
      apply if_congr _ rfl rfl
      exact ⟨fun hneg => ⟨by omega, hneg⟩, fun hlos => hlos.2⟩
    · have habs : ((10 : Int) ^ sc.toInt.toNat).natAbs = 10 ^ sc.toInt.toNat := by
        rw [Int.natAbs_pow]
        rfl
      have hwhole : (v.toInt.tdiv (10 ^ sc.toInt.toNat)).natAbs <
          10 ^ (maxDecimalDigits + 1 - sc.toInt.toNat) := by
        rw [Int.natAbs_tdiv, habs]
        apply (Nat.div_lt_iff_lt_mul (Nat.pow_pos (by decide))).mpr
        rw [← pow_add]
        apply hv.trans_le
        exact Nat.pow_le_pow_right (by decide) (by omega)
      have hfrac : (v.toInt.tmod (10 ^ sc.toInt.toNat)).natAbs < 10 ^ sc.toInt.toNat := by
        rw [Int.natAbs_tmod, habs]
        exact Nat.mod_lt _ (by positivity)
      have hlength := length_integer_le (by omega) hwhole
      rw [String.toList_ofList, List.length_append, List.length_cons,
        DecimalText.length_padded hpos hfrac]
      simp only [maxDecimalText]
      omega

/-- The values that scalars stand for. -/
inductive ScalarValue where
  | boolean (v : Bool)
  | integer (v : Int)
  | float32 (v : F32)
  | float64 (v : F64)
  | decimal (v : ℚ)
  | date (days : Int)
  | instant (micros : Int)
  | localTime (micros : Int)
  | time (micros : Int)
  | text (v : String)
  | bytes (v : List UInt8)

/-- The value of a scalar. A timestamp with a zone is an instant whatever the zone. -/
def denoted : TeoScalar → Option ScalarValue
  | .null => none
  | .boolean v => some (.boolean v)
  | .int8 v => some (.integer v.toInt)
  | .int16 v => some (.integer v.toInt)
  | .int32 v => some (.integer v.toInt)
  | .int64 v => some (.integer v.toInt)
  | .uint8 v => some (.integer v.toNat)
  | .uint16 v => some (.integer v.toNat)
  | .uint32 v => some (.integer v.toNat)
  | .uint64 v => some (.integer v.toNat)
  | .float32 v => some (.float32 v)
  | .float64 v => some (.float64 v)
  | .decimal128 v _ scale => some (.decimal (v.toInt * (10 : ℚ) ^ (-scale.toInt)))
  | .date32 v => some (.date v.toInt)
  | .timestampMicros v tz => some (if tz.isSome then .instant v.toInt else .localTime v.toInt)
  | .time64Micros v => some (.time v.toInt)
  | .utf8 v => some (.text v)
  | .binary v => some (.bytes v)
  | .fixedSizeBinary v => some (.bytes v)

/-- The type of a scalar, which the null does not have. -/
def typeOf : TeoScalar → Option TeoDataType
  | .null => none
  | .boolean _ => some .boolean
  | .int8 _ => some .int8
  | .int16 _ => some .int16
  | .int32 _ => some .int32
  | .int64 _ => some .int64
  | .uint8 _ => some .uint8
  | .uint16 _ => some .uint16
  | .uint32 _ => some .uint32
  | .uint64 _ => some .uint64
  | .float32 _ => some .float32
  | .float64 _ => some .float64
  | .decimal128 _ precision scale => some (.decimal128 precision.toNat scale.toInt)
  | .date32 _ => some .date32
  | .timestampMicros _ tz => some (.timestampMicros tz)
  | .time64Micros _ => some .time64Micros
  | .utf8 _ => some .utf8
  | .binary _ => some .binary
  | .fixedSizeBinary v => some (.fixedSizeBinary v.length)

/-- A scalar of a type: a decimal has a value and a scale that its precision allows. -/
def HasType (t : TeoDataType) (v : TeoScalar) : Prop :=
  typeOf v = some t ∧ ∀ value precision scale, v = .decimal128 value precision scale →
    DecimalAllowed value precision scale

/-- The type of a column after its schema went through Iceberg. -/
def schemaRoundTrip (t : TeoDataType) : TeoDBResult TeoDataType :=
  (teodbToIcebergPrimitive t).bind (icebergPrimitiveToTeodb lib)

/-- A scalar becomes a datum that is read as the same value after a schema round trip. -/
def RoundTrips (t : TeoDataType) (v : TeoScalar) : Prop :=
  ∃ t' d v', schemaRoundTrip lib t = .ok t' ∧ teoScalarToDatum lib v = some (.ok d) ∧
    datumToTeoScalar lib d t' = .ok v' ∧ denoted v' = denoted v

/-- The scalars that Iceberg can hold and that keep their sign on the way. -/
def KeepsValue : TeoScalar → Prop
  | .decimal128 value _ scale => ¬ LosesSign value scale
  | .uint64 v => v.toNat < 2 ^ 63
  | .time64Micros v => ∃ d, lib.timeMicros v = .ok d
  | _ => True

lemma schemaRoundTrip_decimal128 (prec : UInt8) (sc : Int8) :
    schemaRoundTrip lib (.decimal128 prec.toNat sc.toInt) =
      .ok (.decimal128 prec.toNat sc.toInt) := by
  have hpre : prec.toNat % 2 ^ 8 = prec.toNat :=
    Nat.mod_eq_of_lt prec.toNat_lt
  have hscale : Int.bmod ((sc.toInt % 2 ^ 32).toNat : Int) (2 ^ 8) = sc.toInt := by
    have hlow := sc.le_toInt
    have hhigh := sc.toInt_lt
    rw [Int.toNat_of_nonneg (Int.emod_nonneg _ (by decide)), Int.bmod]
    split_ifs <;> omega
  simp only [schemaRoundTrip, teodbToIcebergPrimitive, Except.bind, icebergPrimitiveToTeodb,
    hpre, hscale]

/-- The value that Iceberg holds for a scalar: a sign can be lost, and unsigned numbers wrap. -/
def heldValue : TeoScalar → Option ScalarValue
  | .decimal128 value _ scale => some (.decimal
      ((if LosesSign value scale then -value.toInt else value.toInt : Int) *
        (10 : ℚ) ^ (-scale.toInt)))
  | .uint64 v => some (.integer (Int64.ofNat v.toNat).toInt)
  | v => denoted v

section

variable {lib : IcebergScalars}

/-- A datum, read with the type of its column, has a value. -/
def ReadsAs (lib : IcebergScalars) (t : TeoDataType) (d : Datum) (value : Option ScalarValue) :
    Prop :=
  ∃ t' v', schemaRoundTrip lib t = .ok t' ∧ datumToTeoScalar lib d t' = .ok v' ∧
    denoted v' = value

/-- A scalar becomes a datum that holds a value. -/
def Held (lib : IcebergScalars) (t : TeoDataType) (v : TeoScalar) : Prop :=
  ∃ d, teoScalarToDatum lib v = some (.ok d) ∧ ReadsAs lib t d (heldValue v)

lemma held_decimal128 {v : I128} {prec : UInt8} {sc : Int8} (h : DecimalAllowed v prec sc) :
    Held lib (.decimal128 prec.toNat sc.toInt) (.decimal128 v prec sc) := by
  obtain ⟨text, hfor, hman, hlen⟩ := formatI128Decimal_spec h
  have hvalue := h.value_lt_max
  have hbd : (if LosesSign v sc then -v.toInt else v.toInt).natAbs < 10 ^ maxDecimalDigits := by
    split_ifs <;> omega
  obtain ⟨d, hd, hlit⟩ := lib.decimalFromStr_literal text _ hman hlen hbd
  refine ⟨d, ?_, _, .decimal128 (BitVec.ofInt 128
      (if LosesSign v sc then -v.toInt else v.toInt)) prec sc,
    schemaRoundTrip_decimal128 lib prec sc, ?_, ?_⟩
  · simp only [teoScalarToDatum, hfor, Option.map_some, hd, Except.mapError]
  · simp only [datumToTeoScalar, hlit, primitiveLiteralToTeoScalar, UInt8.ofNat_toNat,
      Int8.ofInt_toInt]
  · have hint : (BitVec.ofInt 128 (if LosesSign v sc then -v.toInt else v.toInt)).toInt =
        if LosesSign v sc then -v.toInt else v.toInt := by
      rw [BitVec.toInt_ofInt]
      simp only [maxDecimalDigits] at hbd
      apply Int.bmod_eq_of_le
      · omega
      · omega
    simp only [denoted, heldValue, hint]

lemma held_timestampMicros (v : Int64) (tz : Option String) :
    Held lib (.timestampMicros tz) (.timestampMicros v tz) := by
  cases tz with
  | none => exact ⟨_, rfl, _, _, rfl, rfl, rfl⟩
  | some zone => exact ⟨_, rfl, _, _, rfl, rfl, rfl⟩

lemma held_time64Micros {v : Int64} {d : Datum} (h : lib.timeMicros v = .ok d) :
    Held lib .time64Micros (.time64Micros v) := by
  refine ⟨d, ?_, _, .time64Micros v, rfl, ?_, rfl⟩
  · simp only [teoScalarToDatum, h, Except.mapError]
  · simp only [datumToTeoScalar, lib.timeMicros_literal v d h, primitiveLiteralToTeoScalar]

lemma held_fixedSizeBinary (v : List UInt8) :
    Held lib (.fixedSizeBinary v.length) (.fixedSizeBinary v) := by
  have ht : ∃ size, schemaRoundTrip lib (.fixedSizeBinary v.length) =
      .ok (.fixedSizeBinary size) := by
    simp only [schemaRoundTrip, teodbToIcebergPrimitive, Except.bind]
    split_ifs
    · exact ⟨_, rfl⟩
    · exact ⟨_, rfl⟩
  obtain ⟨size, ht⟩ := ht
  refine ⟨_, rfl, _, .fixedSizeBinary v, ht, ?_, rfl⟩
  simp [datumToTeoScalar, primitiveLiteralToTeoScalar]

/-- The times that Iceberg accepts, and all scalars of other types. -/
def Accepted (lib : IcebergScalars) : TeoScalar → Prop
  | .time64Micros v => ∃ d, lib.timeMicros v = .ok d
  | _ => True

/-- Every scalar of a type that Iceberg accepts is held. -/
theorem held_of_hasType {t : TeoDataType} {v : TeoScalar} (h : HasType t v)
    (hacc : Accepted lib v) : Held lib t v := by
  obtain ⟨ht, hal⟩ := h
  have integer {i j : Int} (hij : i = j) :
      some (ScalarValue.integer i) = some (ScalarValue.integer j) := by rw [hij]
  cases v with
  | null => cases ht
  | boolean v => cases ht; exact ⟨_, rfl, _, _, rfl, rfl, rfl⟩
  | int8 v => cases ht; exact ⟨_, rfl, _, _, rfl, rfl, integer v.toInt_toInt32⟩
  | int16 v => cases ht; exact ⟨_, rfl, _, _, rfl, rfl, integer v.toInt_toInt32⟩
  | int32 v => cases ht; exact ⟨_, rfl, _, _, rfl, rfl, rfl⟩
  | int64 v => cases ht; exact ⟨_, rfl, _, _, rfl, rfl, rfl⟩
  | uint8 v =>
    cases ht
    have hlt := v.toNat_lt
    exact ⟨_, rfl, _, _, rfl, rfl, integer (Int32.toInt_ofNat_of_lt (by omega))⟩
  | uint16 v =>
    cases ht
    have hlt := v.toNat_lt
    exact ⟨_, rfl, _, _, rfl, rfl, integer (Int32.toInt_ofNat_of_lt (by omega))⟩
  | uint32 v =>
    cases ht
    have hlt := v.toNat_lt
    exact ⟨_, rfl, _, _, rfl, rfl, integer (Int64.toInt_ofNat_of_lt (by omega))⟩
  | uint64 v => cases ht; exact ⟨_, rfl, _, _, rfl, rfl, rfl⟩
  | float32 v => cases ht; exact ⟨_, rfl, _, _, rfl, rfl, rfl⟩
  | float64 v => cases ht; exact ⟨_, rfl, _, _, rfl, rfl, rfl⟩
  | decimal128 value prec sc =>
    cases ht
    exact held_decimal128 (hal value prec sc rfl)
  | date32 v => cases ht; exact ⟨_, rfl, _, _, rfl, rfl, rfl⟩
  | timestampMicros v tz => cases ht; exact held_timestampMicros v tz
  | time64Micros v =>
    cases ht
    obtain ⟨d, hd⟩ := hacc
    exact held_time64Micros hd
  | utf8 v => cases ht; exact ⟨_, rfl, _, _, rfl, rfl, rfl⟩
  | binary v => cases ht; exact ⟨_, rfl, _, _, rfl, rfl, rfl⟩
  | fixedSizeBinary v => cases ht; exact held_fixedSizeBinary v

lemma accepted_of_datum {v : TeoScalar} {d : Datum}
    (h : teoScalarToDatum lib v = some (.ok d)) : Accepted lib v := by
  cases v with
  | time64Micros v =>
    cases ht : lib.timeMicros v with
    | error e => simp [teoScalarToDatum, ht, Except.mapError] at h
    | ok d => exact ⟨d, ht⟩
  | _ => trivial

/-- What Iceberg holds is the value but for lost signs and wrapped numbers. -/
theorem heldValue_eq_denoted_iff {v : TeoScalar} (hacc : Accepted lib v) :
    heldValue v = denoted v ↔ KeepsValue lib v := by
  cases v with
  | decimal128 value prec sc =>
    have hpow : (10 : ℚ) ^ (-sc.toInt) ≠ 0 := zpow_ne_zero _ (by norm_num)
    simp only [heldValue, denoted, KeepsValue, Option.some.injEq, ScalarValue.decimal.injEq,
      mul_eq_mul_right_iff, hpow, or_false, Int.cast_inj]
    by_cases hlos : LosesSign value sc
    · have hneg := hlos.2.1
      simp only [hlos, if_true, not_true_eq_false, iff_false]
      omega
    · simp only [hlos, if_false, not_false_eq_true]
  | uint64 v =>
    simp only [heldValue, denoted, KeepsValue, Option.some.injEq, ScalarValue.integer.injEq]
    constructor
    · intro heq
      have hlt := (Int64.ofNat v.toNat).toInt_lt
      omega
    · intro hlt
      exact Int64.toInt_ofNat_of_lt hlt
  | time64Micros v => exact iff_of_true rfl hacc
  | _ => exact iff_of_true rfl trivial

lemma accepted_of_keepsValue {v : TeoScalar} (h : KeepsValue lib v) : Accepted lib v := by
  cases v with
  | time64Micros v => exact h
  | _ => trivial

lemma keepsValue_of_roundTrips {t : TeoDataType} {v : TeoScalar} (h : HasType t v)
    (hround : RoundTrips lib t v) : KeepsValue lib v := by
  obtain ⟨t', d, v', ht, hdat, hsca, hden⟩ := hround
  have hacc := accepted_of_datum hdat
  obtain ⟨d', hdat', t'', v'', ht', hsca', hheld⟩ := held_of_hasType h hacc
  rw [hdat, Option.some.injEq, Except.ok.injEq] at hdat'
  rw [ht, Except.ok.injEq] at ht'
  rw [← hdat', ← ht', hsca, Except.ok.injEq] at hsca'
  rw [← heldValue_eq_denoted_iff hacc, ← hheld, ← hsca', hden]

end

/-- A scalar of a type goes through Iceberg and comes back as the same value just if Iceberg
can hold it and it does not lose its sign. -/
theorem roundTrips_iff_keepsValue (lib : IcebergScalars) (t : TeoDataType) (v : TeoScalar)
    (h : HasType t v) : RoundTrips lib t v ↔ KeepsValue lib v := by
  constructor
  · exact keepsValue_of_roundTrips h
  · intro hkee
    have hacc := accepted_of_keepsValue hkee
    obtain ⟨d, hdatum, t', v', ht, hsca, hheld⟩ := held_of_hasType h hacc
    exact ⟨t', d, v', ht, hdatum, hsca, hheld.trans ((heldValue_eq_denoted_iff hacc).mpr hkee)⟩

def microsPerDay : Int := 24 * 60 * 60 * 1000000

/-- The digits after the point of a decimal text. -/
def fractionDigits (text : List Char) : Nat := (text.dropWhile (· ≠ '.')).length - 1

def plainTime (v : Int64) : Except String Datum :=
  if 0 ≤ v.toInt ∧ v.toInt < microsPerDay then .ok ⟨.time, .long v⟩
  else .error "Invalid value for Time type"

def plainDecimal (text : String) : Except String Datum :=
  match DecimalText.mantissa text.toList with
  | some m => .ok ⟨.decimal maxDecimalDigits (fractionDigits text.toList),
      .int128 (BitVec.ofInt 128 m)⟩
  | none => .error "invalid decimal"

lemma literal_of_plainTime (v : Int64) (d : Datum) (h : plainTime v = .ok d) :
    d.literal = .long v := by
  rw [plainTime] at h
  split_ifs at h
  cases h
  rfl

lemma literal_of_plainDecimal (text : String) (m : Int)
    (h : DecimalText.mantissa text.toList = some m) (_ : text.toList.length ≤ maxDecimalText)
    (_ : m.natAbs < 10 ^ maxDecimalDigits) :
    ∃ d, plainDecimal text = .ok d ∧ d.literal = .int128 (BitVec.ofInt 128 m) := by
  simp only [plainDecimal, h]
  exact ⟨_, rfl, rfl⟩

/-- Conversions that accept the times of a day and read decimal texts as they stand. -/
def plainIceberg : IcebergScalars where
  timeMicros := plainTime
  decimalFromStr := plainDecimal
  debugLiteral _ := "literal"
  debugType _ := "type"
  debugPrimitive _ := "primitive"
  timeMicros_literal := literal_of_plainTime
  decimalFromStr_literal := literal_of_plainDecimal

lemma hasType_decimal128 {v : I128} {prec : UInt8} {sc : Int8} (h : DecimalAllowed v prec sc) :
    HasType (.decimal128 prec.toNat sc.toInt) (.decimal128 v prec sc) := by
  refine ⟨rfl, ?_⟩
  rintro _ _ _ heq
  cases heq
  exact h

theorem minus_one_and_a_half_roundTrips :
    HasType (.decimal128 2 1) (.decimal128 (BitVec.ofInt 128 (-15)) 2 1) ∧
      RoundTrips plainIceberg (.decimal128 2 1) (.decimal128 (BitVec.ofInt 128 (-15)) 2 1) := by
  have ht : HasType (.decimal128 2 1) (.decimal128 (BitVec.ofInt 128 (-15)) 2 1) :=
    hasType_decimal128 ⟨by decide, by decide, by decide⟩
  have hs : ¬ LosesSign (BitVec.ofInt 128 (-15)) 1 := by decide
  exact ⟨ht, (roundTrips_iff_keepsValue plainIceberg _ _ ht).mpr hs⟩

/-- Minus one half becomes one half. -/
theorem minus_half_loses_sign :
    HasType (.decimal128 2 1) (.decimal128 (BitVec.ofInt 128 (-5)) 2 1) ∧
      teoScalarToDatum plainIceberg (.decimal128 (BitVec.ofInt 128 (-5)) 2 1) =
        some (.ok ⟨.decimal 38 1, .int128 5⟩) ∧
      ¬ RoundTrips plainIceberg (.decimal128 2 1) (.decimal128 (BitVec.ofInt 128 (-5)) 2 1) := by
  have hal : DecimalAllowed (BitVec.ofInt 128 (-5)) 2 1 := ⟨by decide, by decide, by decide⟩
  refine ⟨hasType_decimal128 hal, by decide +kernel, ?_⟩
  intro hround
  exact keepsValue_of_roundTrips (hasType_decimal128 hal) hround (by decide)

end TeoDB.Catalog

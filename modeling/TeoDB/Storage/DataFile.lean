import TeoDB.Core.PlainText
import TeoDB.Core.Scalar
import TeoDB.Lib.Serde
import TeoDB.Storage.Location

/-!
# Data files and their JSON form

The metadata of a data file as it is written into prepared intents and scan descriptors. All is
read back but floating-point values that the JSON library does not print and read as themselves.

## Implementation notes

Field ids are machine numbers here, since the member names of a map are read as such.
-/

namespace TeoDB.Storage

open TeoDB.Core TeoDB.Core.PlainText Lib Storage.Wal

structure FieldId where
  value : Int32
deriving DecidableEq

namespace FieldId

lemma toInt_injective : Function.Injective fun id : FieldId => id.value.toInt := by
  rintro ⟨a⟩ ⟨b⟩ h
  exact congrArg FieldId.mk (Int32.toInt_inj.mp h)

instance : LinearOrder FieldId := LinearOrder.lift' (fun id => id.value.toInt) toInt_injective

end FieldId

abbrev ColumnBounds := OrdMap FieldId TeoScalar

instance {κ ν : Type} [LinearOrder κ] [BEq ν] : BEq (OrdMap κ ν) :=
  ⟨fun a b => a.entries == b.entries⟩

structure DataFile where
  content : DataContent
  path : ObjectLocation
  format : FileFormat
  partitionSpecId : Int32
  sortOrderId : Option Int32
  schemaId : Int32
  partitionValues : ColumnBounds
  recordCount : UInt64
  fileSizeBytes : UInt64
  columnSizes : OrdMap FieldId UInt64
  valueCounts : OrdMap FieldId UInt64
  nullValueCounts : OrdMap FieldId UInt64
  nanValueCounts : OrdMap FieldId UInt64
  lowerBounds : ColumnBounds
  upperBounds : ColumnBounds
  splitOffsets : List Int64
  equalityIds : List FieldId
  keyMetadata : Option (List UInt8)
deriving BEq

/-- How the JSON library prints and reads floating-point numbers. -/
structure NumberTexts where
  f32 : FloatTexts FloatFormat.binary32
  f64 : FloatTexts FloatFormat.binary64

namespace Wire

def uuid : Serde Uuid where
  ser u := .str (String.ofList (uuidChars u))
  de
    | .str text => parseUuid text.toList
    | _ => .error "expected a UUID"
  Fits _ := True
  de_ser_iff u := by simp [parseUuid_uuidChars]

def optionalString : Serde (Option String) := .option .string nofun

def dataContent : Serde DataContent :=
  .units (fun
    | .data => "Data"
    | .positionDelete => "PositionDelete"
    | .equalityDelete => "EqualityDelete") [.data, .positionDelete, .equalityDelete]
    (fun a => by cases a <;> decide) (by decide)

def fileFormat : Serde FileFormat :=
  .units (fun | .parquet => "Parquet") [.parquet] (fun a => by cases a; decide) (by decide)

def storageScheme : Serde StorageScheme :=
  .units StorageScheme.debug [.s3, .gcs, .azureBlob, .local] (fun a => by cases a <;> decide)
    (by decide)

def objectLocation : Serde ObjectLocation :=
  .record
    (.cons "scheme" storageScheme <| .cons "bucket" optionalString <| .cons "key" .string .nil)
    (by decide) false
    { toFun := fun l => (l.scheme, l.bucket, l.key, ())
      invFun := fun (scheme, bucket, key, _) => ⟨scheme, bucket, key⟩ }

def fieldId : Serde FieldId :=
  Serde.int32.equiv ⟨FieldId.value, FieldId.mk, fun _ => rfl, fun _ => rfl⟩

def fieldKeys : Serde.KeyText FieldId :=
  .machine (fun id => id.value.toInt) (fun n => ⟨Int32.ofInt n⟩) (by simp)

def decimal : Serde (I128 × UInt8 × Int8 × Unit) :=
  .record
    (.cons "value" (.signed 128) <| .cons "precision" .uint8 <| .cons "scale" .int8 .nil)
    (by decide) false (Equiv.refl _)

def timestamp : Serde (Int64 × Option String × Unit) :=
  .record (.cons "value" .int64 <| .cons "tz" optionalString .nil) (by decide) false (Equiv.refl _)

def bytes : Serde (List UInt8) := .list .uint8

section

variable (texts : NumberTexts)

def writeScalar : TeoScalar → Json
  | .null => .str "Null"
  | .boolean v => Serde.writeVariant "Boolean" (Serde.bool.ser v)
  | .int8 v => Serde.writeVariant "Int8" (Serde.int8.ser v)
  | .int16 v => Serde.writeVariant "Int16" (Serde.int16.ser v)
  | .int32 v => Serde.writeVariant "Int32" (Serde.int32.ser v)
  | .int64 v => Serde.writeVariant "Int64" (Serde.int64.ser v)
  | .uint8 v => Serde.writeVariant "UInt8" (Serde.uint8.ser v)
  | .uint16 v => Serde.writeVariant "UInt16" (Serde.uint16.ser v)
  | .uint32 v => Serde.writeVariant "UInt32" (Serde.uint32.ser v)
  | .uint64 v => Serde.writeVariant "UInt64" (Serde.uint64.ser v)
  | .float32 v => Serde.writeVariant "Float32" (texts.f32.serde.ser v)
  | .float64 v => Serde.writeVariant "Float64" (texts.f64.serde.ser v)
  | .decimal128 value precision scale =>
    Serde.writeVariant "Decimal128" (decimal.ser (value, precision, scale, ()))
  | .date32 v => Serde.writeVariant "Date32" (Serde.int32.ser v)
  | .timestampMicros value tz =>
    Serde.writeVariant "TimestampMicros" (timestamp.ser (value, tz, ()))
  | .time64Micros v => Serde.writeVariant "Time64Micros" (Serde.int64.ser v)
  | .utf8 v => Serde.writeVariant "Utf8" (Serde.string.ser v)
  | .binary v => Serde.writeVariant "Binary" (bytes.ser v)
  | .fixedSizeBinary v => Serde.writeVariant "FixedSizeBinary" (bytes.ser v)

def readScalar : Json → Except String TeoScalar :=
  Serde.readVariant [("Null", .null)]
    [("Boolean", fun json => (Serde.bool.de json).map .boolean),
      ("Int8", fun json => (Serde.int8.de json).map .int8),
      ("Int16", fun json => (Serde.int16.de json).map .int16),
      ("Int32", fun json => (Serde.int32.de json).map .int32),
      ("Int64", fun json => (Serde.int64.de json).map .int64),
      ("UInt8", fun json => (Serde.uint8.de json).map .uint8),
      ("UInt16", fun json => (Serde.uint16.de json).map .uint16),
      ("UInt32", fun json => (Serde.uint32.de json).map .uint32),
      ("UInt64", fun json => (Serde.uint64.de json).map .uint64),
      ("Float32", fun json => (texts.f32.serde.de json).map .float32),
      ("Float64", fun json => (texts.f64.serde.de json).map .float64),
      ("Decimal128", fun json => (decimal.de json).map fun (value, precision, scale, _) =>
        .decimal128 value precision scale),
      ("Date32", fun json => (Serde.int32.de json).map .date32),
      ("TimestampMicros", fun json => (timestamp.de json).map fun (value, tz, _) =>
        .timestampMicros value tz),
      ("Time64Micros", fun json => (Serde.int64.de json).map .time64Micros),
      ("Utf8", fun json => (Serde.string.de json).map .utf8),
      ("Binary", fun json => (bytes.de json).map .binary),
      ("FixedSizeBinary", fun json => (bytes.de json).map .fixedSizeBinary)]

/-- A scalar that is read back: all but floating-point numbers that are not kept. -/
def ScalarKept : TeoScalar → Prop
  | .float32 v => texts.f32.Kept v
  | .float64 v => texts.f64.Kept v
  | _ => True

lemma readScalar_writeScalar_iff (v : TeoScalar) :
    readScalar texts (writeScalar texts v) = .ok v ↔ ScalarKept texts v := by
  cases v with
  | null => exact iff_true_intro rfl
  | boolean v => exact Serde.bool.map_de_ser_iff TeoScalar.boolean v
  | int8 v => exact Serde.int8.map_de_ser_iff TeoScalar.int8 v
  | int16 v => exact Serde.int16.map_de_ser_iff TeoScalar.int16 v
  | int32 v => exact Serde.int32.map_de_ser_iff TeoScalar.int32 v
  | int64 v => exact Serde.int64.map_de_ser_iff TeoScalar.int64 v
  | uint8 v => exact Serde.uint8.map_de_ser_iff TeoScalar.uint8 v
  | uint16 v => exact Serde.uint16.map_de_ser_iff TeoScalar.uint16 v
  | uint32 v => exact Serde.uint32.map_de_ser_iff TeoScalar.uint32 v
  | uint64 v => exact Serde.uint64.map_de_ser_iff TeoScalar.uint64 v
  | float32 v => exact texts.f32.serde.map_de_ser_iff TeoScalar.float32 v
  | float64 v => exact texts.f64.serde.map_de_ser_iff TeoScalar.float64 v
  | decimal128 val prec sc =>
    refine (decimal.map_de_ser_iff (fun (val, prec, sc, _) =>
      TeoScalar.decimal128 val prec sc) (val, prec, sc, ()) ?_).trans ?_
    · rintro ⟨a, b, c, _⟩ ⟨a', b', c', _⟩ h
      cases h
      rfl
    · exact iff_true_intro ⟨trivial, trivial, trivial, trivial⟩
  | date32 v => exact Serde.int32.map_de_ser_iff TeoScalar.date32 v
  | timestampMicros val tz =>
    refine (timestamp.map_de_ser_iff (fun (val, tz, _) =>
      TeoScalar.timestampMicros val tz) (val, tz, ()) ?_).trans ?_
    · rintro ⟨a, b, _⟩ ⟨a', b', _⟩ h
      cases h
      rfl
    · exact iff_true_intro ⟨trivial, fun _ _ => trivial, trivial⟩
  | time64Micros v => exact Serde.int64.map_de_ser_iff TeoScalar.time64Micros v
  | utf8 v => exact Serde.string.map_de_ser_iff TeoScalar.utf8 v
  | binary v =>
    refine (bytes.map_de_ser_iff TeoScalar.binary v).trans ?_
    exact iff_true_intro fun _ _ => trivial
  | fixedSizeBinary v =>
    refine (bytes.map_de_ser_iff TeoScalar.fixedSizeBinary v).trans ?_
    exact iff_true_intro fun _ _ => trivial

def scalar : Serde TeoScalar where
  ser := writeScalar texts
  de := readScalar texts
  Fits := ScalarKept texts
  de_ser_iff := readScalar_writeScalar_iff texts

def bounds : Serde ColumnBounds := .map fieldKeys (scalar texts)

end

def counts : Serde (OrdMap FieldId UInt64) := .map fieldKeys .uint64

def dataFile (texts : NumberTexts) : Serde DataFile :=
  .record
    (.cons "content" dataContent <| .cons "path" objectLocation <| .cons "format" fileFormat <|
      .cons "partition_spec_id" .int32 <| .cons "sort_order_id" (.option .int32 nofun) <|
      .cons "schema_id" .int32 <| .cons "partition_values" (bounds texts) <|
      .cons "record_count" .uint64 <| .cons "file_size_bytes" .uint64 <|
      .cons "column_sizes" counts <| .cons "value_counts" counts <|
      .cons "null_value_counts" counts <| .cons "nan_value_counts" counts <|
      .cons "lower_bounds" (bounds texts) <| .cons "upper_bounds" (bounds texts) <|
      .cons "split_offsets" (.list .int64) <| .cons "equality_ids" (.list fieldId) <|
      .cons "key_metadata" (.option bytes nofun) .nil)
    (by simp) false
    { toFun := fun f => (f.content, f.path, f.format, f.partitionSpecId, f.sortOrderId, f.schemaId,
        f.partitionValues, f.recordCount, f.fileSizeBytes, f.columnSizes, f.valueCounts,
        f.nullValueCounts, f.nanValueCounts, f.lowerBounds, f.upperBounds, f.splitOffsets,
        f.equalityIds, f.keyMetadata, ())
      invFun := fun (content, path, format, partitionSpecId, sortOrderId, schemaId,
          partitionValues, recordCount, fileSizeBytes, columnSizes, valueCounts, nullValueCounts,
          nanValueCounts, lowerBounds, upperBounds, splitOffsets, equalityIds, keyMetadata, _) =>
        ⟨content, path, format, partitionSpecId, sortOrderId, schemaId, partitionValues,
          recordCount, fileSizeBytes, columnSizes, valueCounts, nullValueCounts, nanValueCounts,
          lowerBounds, upperBounds, splitOffsets, equalityIds, keyMetadata⟩ }

end Wire

/-- The bounds and partition values of a file that are floating-point numbers are printed
and read as themselves. -/
structure DataFile.Kept (texts : NumberTexts) (file : DataFile) : Prop where
  partitionValues : ∀ v ∈ file.partitionValues.values, Wire.ScalarKept texts v
  lowerBounds : ∀ v ∈ file.lowerBounds.values, Wire.ScalarKept texts v
  upperBounds : ∀ v ∈ file.upperBounds.values, Wire.ScalarKept texts v

/-- A file is read back exactly if its floating-point numbers are. -/
theorem Wire.dataFile_fits_iff (texts : NumberTexts) (file : DataFile) :
    (Wire.dataFile texts).Fits file ↔ file.Kept texts := by
  constructor
  · rintro ⟨_, _, _, _, _, _, hpar, _, _, _, _, _, _, hlow, hupp, _⟩
    exact ⟨hpar, hlow, hupp⟩
  · rintro ⟨hpar, hlow, hupp⟩
    exact ⟨trivial, ⟨trivial, fun _ _ => trivial, trivial, trivial⟩, trivial, trivial,
      fun _ _ => trivial, trivial, hpar, trivial, trivial, fun _ _ => trivial,
      fun _ _ => trivial, fun _ _ => trivial, fun _ _ => trivial, hlow, hupp,
      fun _ _ => trivial, fun _ _ => trivial, fun _ _ _ _ => trivial, trivial⟩

end TeoDB.Storage

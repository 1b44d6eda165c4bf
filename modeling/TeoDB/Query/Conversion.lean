import TeoDB.Core.Schema

/-!
# Schemas as Arrow schemas

The columns of a table as Arrow fields. A field carries the id of its column as metadata.

## Implementation notes

Arrow types that no table has are told apart by their rendering only.
-/

namespace TeoDB.Query

open TeoDB.Core

inductive TimeUnit where
  | second
  | millisecond
  | microsecond
  | nanosecond
deriving DecidableEq

inductive ArrowDataType where
  | boolean
  | int8
  | int16
  | int32
  | int64
  | uint8
  | uint16
  | uint32
  | uint64
  | float32
  | float64
  | decimal128 (precision : Nat) (scale : Int)
  | decimal256 (precision : Nat) (scale : Int)
  | date32
  | timestamp (unit : TimeUnit) (tz : Option String)
  | time64 (unit : TimeUnit)
  | utf8
  | binary
  | fixedSizeBinary (size : Int)
  | other (rendering : String)
deriving DecidableEq

/-- A field with the text of its `PARQUET:field_id`. -/
structure Field where
  name : String
  dataType : ArrowDataType
  nullable : Bool
  fieldId : Option String
deriving DecidableEq

abbrev ArrowSchema := List Field

def teoToArrowType : TeoDataType → ArrowDataType
  | .boolean => .boolean
  | .int8 => .int8
  | .int16 => .int16
  | .int32 => .int32
  | .int64 => .int64
  | .uint8 => .uint8
  | .uint16 => .uint16
  | .uint32 => .uint32
  | .uint64 => .uint64
  | .float32 => .float32
  | .float64 => .float64
  | .decimal128 precision scale => .decimal128 precision scale
  | .date32 => .date32
  | .timestampMicros tz => .timestamp .microsecond tz
  | .time64Micros => .time64 .microsecond
  | .utf8 => .utf8
  | .binary => .binary
  | .fixedSizeBinary size => .fixedSizeBinary size

def columnMetaToArrowField (column : ColumnMeta) : Field :=
  ⟨column.name, teoToArrowType column.dataType, column.nullable, some (toString column.id)⟩

def schemaToArrow (schema : SchemaDefinition) : ArrowSchema :=
  schema.columns.map columnMetaToArrowField

end TeoDB.Query

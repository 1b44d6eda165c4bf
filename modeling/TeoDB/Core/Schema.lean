import TeoDB.Core.Error

/-!
# Schemas, partition specs and identifiers that pass validation

Columns are identified by their field id. A partition spec that is given by column
names is bound to the columns of a schema. Names that users supply at the API boundary
pass `validateIdentifier`.
-/

namespace TeoDB.Core

inductive TeoDataType where
  | boolean
  | int8
  | int16
  | int32
  | int64
  | uint8
  | uint16
  | uint32
  | uint64
  | float32
  | float64
  | decimal128 (precision : Nat) (scale : Int)
  | date32
  | timestampMicros (tz : Option String)
  | time64Micros
  | utf8
  | binary
  | fixedSizeBinary (size : Int)
deriving DecidableEq

structure ColumnMeta where
  id : Int
  name : String
  dataType : TeoDataType
  nullable : Bool
  doc : Option String
deriving DecidableEq

structure SchemaDefinition where
  schemaId : Int
  columns : List ColumnMeta
  identifierFieldIds : List Int
deriving DecidableEq

namespace SchemaDefinition

def byId (schema : SchemaDefinition) (id : Int) : Option ColumnMeta :=
  schema.columns.find? fun column => column.id == id

def byName (schema : SchemaDefinition) (name : String) : Option ColumnMeta :=
  schema.columns.find? fun column => column.name == name

end SchemaDefinition

inductive PartitionTransform where
  | identity
  | year
  | month
  | day
  | hour
  | bucket (numBuckets : Nat)
  | truncate (width : Nat)
  | void
deriving DecidableEq

/-- A partition field bound by the catalog. Its value is recorded under `fieldId`. -/
structure PartitionField where
  sourceId : Int
  fieldId : Int
  name : String
  transform : PartitionTransform
deriving DecidableEq

structure PartitionSpec where
  specId : Int
  fields : List PartitionField
deriving DecidableEq

inductive SortDirection where
  | asc
  | desc
deriving DecidableEq

inductive NullOrder where
  | nullsFirst
  | nullsLast
deriving DecidableEq

structure SortField where
  sourceId : Int
  transform : PartitionTransform
  direction : SortDirection
  nullOrder : NullOrder
deriving DecidableEq

structure SortOrder where
  orderId : Int
  fields : List SortField
deriving DecidableEq

structure UnboundPartitionField where
  sourceId : Int
  fieldId : Option Int
  name : String
  transform : PartitionTransform
deriving DecidableEq

structure UnboundPartitionSpec where
  specId : Option Int
  fields : List UnboundPartitionField
deriving DecidableEq

/-- The transforms that a statement or a request can name. -/
inductive PartitionTransformSpec where
  | identity
  | year
  | month
  | day
  | hour
  | bucket (n : Nat)
  | truncate (w : Nat)
deriving DecidableEq

namespace PartitionTransformSpec

def toDomain : PartitionTransformSpec → PartitionTransform
  | identity => .identity
  | year => .year
  | month => .month
  | day => .day
  | hour => .hour
  | bucket n => .bucket n
  | truncate w => .truncate w

def defaultFieldName (columnName : String) : PartitionTransformSpec → String
  | identity => columnName
  | year => s!"{columnName}_year"
  | month => s!"{columnName}_month"
  | day => s!"{columnName}_day"
  | hour => s!"{columnName}_hour"
  | bucket n => s!"{columnName}_bucket_{n}"
  | truncate w => s!"{columnName}_trunc_{w}"

end PartitionTransformSpec

/-- A partition field as a statement or a request names it. -/
structure PartitionFieldSpec where
  columnName : String
  fieldName : Option String
  transform : PartitionTransformSpec
deriving DecidableEq

def PartitionFieldSpec.new (columnName : String) (transform : PartitionTransformSpec) :
    PartitionFieldSpec :=
  ⟨columnName, none, transform⟩

def PartitionFieldSpec.bind (schema : SchemaDefinition) (field : PartitionFieldSpec) :
    TeoDBResult UnboundPartitionField :=
  match schema.byName field.columnName with
  | none => .error (.invalidArgument "partition_by"
      s!"partition column '{field.columnName}' not found in table schema")
  | some column =>
    .ok ⟨column.id, none,
      field.fieldName.getD (field.transform.defaultFieldName field.columnName),
      field.transform.toDomain⟩

/-- Bind the fields of a spec in order. The first field that fails decides. -/
def PartitionSpecBuilder.build (schema : SchemaDefinition) (fields : List PartitionFieldSpec) :
    TeoDBResult UnboundPartitionSpec :=
  (fields.mapM (PartitionFieldSpec.bind schema)).map fun bound => ⟨some 0, bound⟩

def maxIdentifierLen : Nat := 128

/-- Validate an identifier: 1 to 128 bytes, ASCII letters, digits and underscores, and no
digit at the start. -/
def validateIdentifier (kind value : String) : TeoDBResult Unit :=
  match value.toList with
  | [] => .error (.invalidArgument kind s!"{kind} must not be empty")
  | first :: _ =>
    if value.utf8ByteSize > maxIdentifierLen then
      .error (.invalidArgument kind
        s!"{kind} exceeds maximum length of {maxIdentifierLen} characters")
    else if !first.isAlpha && first != '_' then
      .error (.invalidArgument kind
        s!"{kind} must start with a letter or underscore, got '{first}'")
    else
      match value.toList.find? fun c => !c.isAlphanum && c != '_' with
      | some bad => .error (.invalidArgument kind
          (s!"{kind} contains invalid character '{bad}'; " ++
            "only ASCII letters, digits, and underscores are allowed"))
      | none => .ok ()

/-- A valid identifier is not empty and has only letters, digits and underscores. -/
theorem chars_of_validateIdentifier {kind v : String} (h : validateIdentifier kind v = .ok ()) :
    v.toList ≠ [] ∧ ∀ c ∈ v.toList, c.isAlphanum = true ∨ c = '_' := by
  unfold validateIdentifier at h
  split at h
  · cases h
  · rename_i first rest hv
    refine ⟨by simp [hv], ?_⟩
    split_ifs at h
    split at h
    · cases h
    · rename_i hn
      intro c hc
      have hvd := List.find?_eq_none.mp hn c hc
      simpa [or_iff_not_imp_left] using hvd

end TeoDB.Core

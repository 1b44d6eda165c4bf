import TeoDB.Core.Schema
import TeoDB.Storage.Wal.SidecarCrash

/-!
# Scan descriptors on the wire

The coordinator freezes the snapshot, the schema and the files of a scan in a descriptor and sends
it to the executors as JSON, in an envelope with the version of the format.

A descriptor is decoded as it was encoded exactly if the floating-point bounds and
partition values of its files are printed and read as themselves.
-/

namespace TeoDB.Distributed

open TeoDB.Core Lib Storage Storage.Wal

structure SnapshotScanDescriptor where
  tableUuid : Uuid
  nameSpace : String
  tableName : String
  tableLocation : ObjectLocation
  snapshotId : Int
  schema : SchemaDefinition
  partitionSpec : PartitionSpec
  sortOrder : SortOrder
  dataFiles : List DataFile
  deleteFiles : List DataFile

namespace Wire

open Storage.Wire Storage.Wal.Wire

/-- Signed numbers of 32 bits that are kept as integers. -/
def i32 : Serde Int := .intIn (-2 ^ 31) (2 ^ 31 - 1)

def i8 : Serde Int := .intIn (-2 ^ 7) (2 ^ 7 - 1)

def decimalType : Serde (Nat × Int × Unit) :=
  .record (.cons "precision" (.natTo 255) <| .cons "scale" i8 .nil) (by simp) false (Equiv.refl _)

def timestampType : Serde (Option String × Unit) :=
  .record (.cons "tz" optionalString .nil) (by simp) false (Equiv.refl _)

def writeDataType : TeoDataType → Json
  | .boolean => .str "Boolean"
  | .int8 => .str "Int8"
  | .int16 => .str "Int16"
  | .int32 => .str "Int32"
  | .int64 => .str "Int64"
  | .uint8 => .str "UInt8"
  | .uint16 => .str "UInt16"
  | .uint32 => .str "UInt32"
  | .uint64 => .str "UInt64"
  | .float32 => .str "Float32"
  | .float64 => .str "Float64"
  | .decimal128 precision scale =>
    Serde.writeVariant "Decimal128" (decimalType.ser (precision, scale, ()))
  | .date32 => .str "Date32"
  | .timestampMicros tz => Serde.writeVariant "TimestampMicros" (timestampType.ser (tz, ()))
  | .time64Micros => .str "Time64Micros"
  | .utf8 => .str "Utf8"
  | .binary => .str "Binary"
  | .fixedSizeBinary size => Serde.writeVariant "FixedSizeBinary" (i32.ser size)

def readDataType : Json → Except String TeoDataType :=
  Serde.readVariant
    [("Boolean", .boolean), ("Int8", .int8), ("Int16", .int16), ("Int32", .int32),
      ("Int64", .int64), ("UInt8", .uint8), ("UInt16", .uint16), ("UInt32", .uint32),
      ("UInt64", .uint64), ("Float32", .float32), ("Float64", .float64), ("Date32", .date32),
      ("Time64Micros", .time64Micros), ("Utf8", .utf8), ("Binary", .binary)]
    [("Decimal128", fun json => (decimalType.de json).map fun (precision, scale, _) =>
        .decimal128 precision scale),
      ("TimestampMicros", fun json => (timestampType.de json).map fun (tz, _) =>
        .timestampMicros tz),
      ("FixedSizeBinary", fun json => (i32.de json).map .fixedSizeBinary)]

/-- The numbers of a type are in the ranges of their machine types. -/
def DataTypeInRange : TeoDataType → Prop
  | .decimal128 precision scale => precision ≤ 255 ∧ -2 ^ 7 ≤ scale ∧ scale ≤ 2 ^ 7 - 1
  | .fixedSizeBinary size => -2 ^ 31 ≤ size ∧ size ≤ 2 ^ 31 - 1
  | _ => True

lemma readDataType_writeDataType_iff (dataType : TeoDataType) :
    readDataType (writeDataType dataType) = .ok dataType ↔ DataTypeInRange dataType := by
  cases dataType with
  | decimal128 prec sc =>
    refine (decimalType.map_de_ser_iff (fun (prec, sc, _) =>
      TeoDataType.decimal128 prec sc) (prec, sc, ()) ?_).trans ?_
    · rintro ⟨a, b, _⟩ ⟨a', b', _⟩ h
      cases h
      rfl
    · exact ⟨fun h => ⟨h.1, h.2.1⟩, fun h => ⟨h.1, h.2, trivial⟩⟩
  | timestampMicros tz =>
    refine (timestampType.map_de_ser_iff (fun (tz, _) =>
      TeoDataType.timestampMicros tz) (tz, ()) ?_).trans ?_
    · rintro ⟨a, _⟩ ⟨a', _⟩ h
      cases h
      rfl
    · exact iff_true_intro ⟨fun _ _ => trivial, trivial⟩
  | fixedSizeBinary size =>
    exact i32.map_de_ser_iff TeoDataType.fixedSizeBinary size
  | _ => exact iff_true_intro rfl

def dataType : Serde TeoDataType where
  ser := writeDataType
  de := readDataType
  Fits := DataTypeInRange
  de_ser_iff := readDataType_writeDataType_iff

def columnMeta : Serde ColumnMeta :=
  .record
    (.cons "id" i32 <| .cons "name" .string <| .cons "data_type" dataType <|
      .cons "nullable" .bool <| .cons "doc" optionalString .nil)
    (by simp) false
    { toFun := fun c => (c.id, c.name, c.dataType, c.nullable, c.doc, ())
      invFun := fun (id, name, dataType, nullable, doc, _) => ⟨id, name, dataType, nullable, doc⟩ }

def schemaDefinition : Serde SchemaDefinition :=
  .record
    (.cons "schema_id" i32 <| .cons "columns" (.list columnMeta) <|
      .cons "identifier_field_ids" (.list i32) .nil)
    (by simp) false
    { toFun := fun s => (s.schemaId, s.columns, s.identifierFieldIds, ())
      invFun := fun (schemaId, columns, identifierFieldIds, _) =>
        ⟨schemaId, columns, identifierFieldIds⟩ }

def bucketTransform : Serde (Nat × Unit) :=
  .record (.cons "num_buckets" (.natTo (2 ^ 32 - 1)) .nil) (by simp) false (Equiv.refl _)

def truncateTransform : Serde (Nat × Unit) :=
  .record (.cons "width" (.natTo (2 ^ 32 - 1)) .nil) (by simp) false (Equiv.refl _)

def writeTransform : PartitionTransform → Json
  | .identity => .str "Identity"
  | .year => .str "Year"
  | .month => .str "Month"
  | .day => .str "Day"
  | .hour => .str "Hour"
  | .bucket numBuckets => Serde.writeVariant "Bucket" (bucketTransform.ser (numBuckets, ()))
  | .truncate width => Serde.writeVariant "Truncate" (truncateTransform.ser (width, ()))
  | .void => .str "Void"

def readTransform : Json → Except String PartitionTransform :=
  Serde.readVariant
    [("Identity", .identity), ("Year", .year), ("Month", .month), ("Day", .day), ("Hour", .hour),
      ("Void", .void)]
    [("Bucket", fun json => (bucketTransform.de json).map fun (numBuckets, _) =>
        .bucket numBuckets),
      ("Truncate", fun json => (truncateTransform.de json).map fun (width, _) => .truncate width)]

def TransformInRange : PartitionTransform → Prop
  | .bucket numBuckets => numBuckets ≤ 2 ^ 32 - 1
  | .truncate width => width ≤ 2 ^ 32 - 1
  | _ => True

lemma readTransform_writeTransform_iff (transform : PartitionTransform) :
    readTransform (writeTransform transform) = .ok transform ↔ TransformInRange transform := by
  have hinj {f : Nat → PartitionTransform} (hf : Function.Injective f) :
      Function.Injective fun r : Nat × Unit => f r.1 := by
    rintro ⟨a, _⟩ ⟨b, _⟩ h
    exact Prod.ext (hf h) rfl
  cases transform with
  | bucket numBuckets =>
    refine (bucketTransform.map_de_ser_iff (fun (n, _) => PartitionTransform.bucket n)
      (numBuckets, ()) (hinj fun _ _ => PartitionTransform.bucket.inj)).trans ?_
    exact ⟨fun h => h.1, fun h => ⟨h, trivial⟩⟩
  | truncate w =>
    refine (truncateTransform.map_de_ser_iff (fun (n, _) => PartitionTransform.truncate n)
      (w, ()) (hinj fun _ _ => PartitionTransform.truncate.inj)).trans ?_
    exact ⟨fun h => h.1, fun h => ⟨h, trivial⟩⟩
  | _ => exact iff_true_intro rfl

def partitionTransform : Serde PartitionTransform where
  ser := writeTransform
  de := readTransform
  Fits := TransformInRange
  de_ser_iff := readTransform_writeTransform_iff

def partitionField : Serde PartitionField :=
  .record
    (.cons "source_id" i32 <| .cons "field_id" i32 <| .cons "name" .string <|
      .cons "transform" partitionTransform .nil)
    (by simp) false
    { toFun := fun f => (f.sourceId, f.fieldId, f.name, f.transform, ())
      invFun := fun (sourceId, fieldId, name, transform, _) =>
        ⟨sourceId, fieldId, name, transform⟩ }

def partitionSpec : Serde PartitionSpec :=
  .record (.cons "spec_id" i32 <| .cons "fields" (.list partitionField) .nil) (by simp) false
    { toFun := fun s => (s.specId, s.fields, ())
      invFun := fun (specId, fields, _) => ⟨specId, fields⟩ }

def sortDirection : Serde SortDirection :=
  .units (fun
    | .asc => "Asc"
    | .desc => "Desc") [.asc, .desc] (fun a => by cases a <;> decide) (by decide)

def nullOrder : Serde NullOrder :=
  .units (fun
    | .nullsFirst => "NullsFirst"
    | .nullsLast => "NullsLast") [.nullsFirst, .nullsLast] (fun a => by cases a <;> decide)
    (by decide)

def sortField : Serde SortField :=
  .record
    (.cons "source_id" i32 <| .cons "transform" partitionTransform <|
      .cons "direction" sortDirection <| .cons "null_order" nullOrder .nil)
    (by simp) false
    { toFun := fun f => (f.sourceId, f.transform, f.direction, f.nullOrder, ())
      invFun := fun (sourceId, transform, direction, nullOrder, _) =>
        ⟨sourceId, transform, direction, nullOrder⟩ }

def sortOrder : Serde SortOrder :=
  .record (.cons "order_id" i32 <| .cons "fields" (.list sortField) .nil) (by simp) false
    { toFun := fun s => (s.orderId, s.fields, ())
      invFun := fun (orderId, fields, _) => ⟨orderId, fields⟩ }

def descriptor (texts : NumberTexts) : Serde SnapshotScanDescriptor :=
  .record
    (.cons "table_uuid" uuid <| .cons "namespace" .string <| .cons "table_name" .string <|
      .cons "table_location" objectLocation <| .cons "snapshot_id" i64 <|
      .cons "schema" schemaDefinition <| .cons "partition_spec" partitionSpec <|
      .cons "sort_order" sortOrder <| .cons "data_files" (.list (dataFile texts)) <|
      .cons "delete_files" (.list (dataFile texts)) .nil)
    (by simp) true
    { toFun := fun d => (d.tableUuid, d.nameSpace, d.tableName, d.tableLocation, d.snapshotId,
        d.schema, d.partitionSpec, d.sortOrder, d.dataFiles, d.deleteFiles, ())
      invFun := fun (tableUuid, nameSpace, tableName, tableLocation, snapshotId, schema,
          partitionSpec, sortOrder, dataFiles, deleteFiles, _) =>
        ⟨tableUuid, nameSpace, tableName, tableLocation, snapshotId, schema, partitionSpec,
          sortOrder, dataFiles, deleteFiles⟩ }

def versionedDescriptor (texts : NumberTexts) : Serde (Nat × SnapshotScanDescriptor) :=
  .record
    (.cons "version" (.natTo (2 ^ 32 - 1)) <| .cons "descriptor" (descriptor texts) .nil)
    (by simp) true
    { toFun := fun v => (v.1, v.2, ())
      invFun := fun (version, descriptor, _) => (version, descriptor) }

/-- The version of an envelope, whatever else is in it. -/
def versionPeek : Serde Nat :=
  .record (.cons "version" (.natTo (2 ^ 32 - 1)) .nil) (by simp) false
    { toFun := fun version => (version, ())
      invFun := fun (version, _) => version }

end Wire

def descriptorCodecVersion : Nat := 1

section

variable (text : JsonText) (numbers : NumberTexts)

def encodeDescriptor (descriptor : SnapshotScanDescriptor) : text.Text :=
  text.render ((Wire.versionedDescriptor numbers).ser (descriptorCodecVersion, descriptor))

def decodeDescriptor (bytes : text.Text) : Except String SnapshotScanDescriptor :=
  match text.parse bytes >>= Wire.versionPeek.de with
  | .error e => .error s!"failed to decode SnapshotScanDescriptor envelope: {e}"
  | .ok version =>
    if version ≠ descriptorCodecVersion then
      .error (s!"unsupported SnapshotScanDescriptor codec version {version} " ++
        s!"(this node supports {descriptorCodecVersion}); " ++
        "ensure coordinator and executors run the same TeoDB version")
    else
      match text.parse bytes >>= (Wire.versionedDescriptor numbers).de with
      | .error e => .error s!"failed to decode SnapshotScanDescriptor (version {version}): {e}"
      | .ok envelope => .ok envelope.2

end

/-- The numbers of a descriptor are in the ranges of their machine types. -/
structure SnapshotScanDescriptor.InRange (d : SnapshotScanDescriptor) : Prop where
  snapshotId : -2 ^ 63 ≤ d.snapshotId ∧ d.snapshotId ≤ 2 ^ 63 - 1
  schema : Wire.schemaDefinition.Fits d.schema
  partitionSpec : Wire.partitionSpec.Fits d.partitionSpec
  sortOrder : Wire.sortOrder.Fits d.sortOrder

/-- The floating-point numbers of a descriptor's files are read back. -/
def SnapshotScanDescriptor.Kept (texts : NumberTexts) (d : SnapshotScanDescriptor) : Prop :=
  (∀ file ∈ d.dataFiles, file.Kept texts) ∧ ∀ file ∈ d.deleteFiles, file.Kept texts

lemma Wire.descriptor_fits_iff (texts : NumberTexts) {d : SnapshotScanDescriptor}
    (h : d.InRange) : (Wire.descriptor texts).Fits d ↔ d.Kept texts := by
  have hfs (fs : List DataFile) : (∀ file ∈ fs, (Storage.Wire.dataFile texts).Fits file) ↔
        ∀ file ∈ fs, file.Kept texts :=
    forall₂_congr fun file _ => Storage.Wire.dataFile_fits_iff texts file
  rw [SnapshotScanDescriptor.Kept, ← hfs, ← hfs]
  constructor
  · rintro ⟨_, _, _, _, _, _, _, _, hd, hdel, _⟩
    exact ⟨hd, hdel⟩
  · rintro ⟨hd, hdel⟩
    exact ⟨trivial, trivial, trivial, ⟨trivial, fun _ _ => trivial, trivial, trivial⟩,
      h.snapshotId, h.schema, h.partitionSpec, h.sortOrder, hd, hdel, trivial⟩

/-- Reading an envelope is reading the descriptor in it. -/
lemma versionedDescriptor_de_ser (numbers : NumberTexts) (d : SnapshotScanDescriptor) :
    (Wire.versionedDescriptor numbers).de
        ((Wire.versionedDescriptor numbers).ser (descriptorCodecVersion, d)) =
      ((Wire.descriptor numbers).de ((Wire.descriptor numbers).ser d)).map fun read =>
        (descriptorCodecVersion, read) := by
  unfold Wire.versionedDescriptor
  simp only [Serde.record]
  rw [Serde.readRecord_put (by simp)]
  generalize Wire.descriptor numbers = inner
  cases hr : inner.de (inner.ser d) <;>
    simp [hr, Serde.Fields.cons, Serde.Fields.nil, Serde.readField, Serde.natTo, Serde.intIn,
      List.lookup, descriptorCodecVersion, bind, Except.bind, pure, Except.pure, Except.map]

/-- A descriptor is decoded as it was encoded exactly if its floating-point numbers are. -/
lemma decodeDescriptor_encodeDescriptor_iff (text : JsonText) (numbers : NumberTexts)
    {d : SnapshotScanDescriptor} (h : d.InRange) :
    decodeDescriptor text numbers (encodeDescriptor text numbers d) = .ok d ↔ d.Kept numbers := by
  have hp : Wire.versionPeek.de
      ((Wire.versionedDescriptor numbers).ser (descriptorCodecVersion, d)) =
        .ok descriptorCodecVersion := rfl
  have hb (json : Json) {α : Type} (f : Json → Except String α) : (.ok json >>= f) = f json := rfl
  rw [← Wire.descriptor_fits_iff numbers h, ← Serde.de_ser_iff, decodeDescriptor, encodeDescriptor,
    text.parse_render, hb, hb, hp, versionedDescriptor_de_ser]
  cases (Wire.descriptor numbers).de ((Wire.descriptor numbers).ser d) <;> simp [Except.map]

/-- A persisted intent is listed again, and a descriptor decoded as it was encoded, exactly if the
floating-point numbers in their files are read back. -/
theorem roundTrip_iff (store : SidecarStore) :
    (∀ (dir dir' : store.Sidecars) (prepared : PreparedFlush DataFile) (fault : Option FileFault),
      prepared.InRange → store.persist dir prepared fault = (.ok (), dir') →
        (store.Returns dir' prepared ↔ store.Keeps dir prepared)) ∧
      ∀ d : SnapshotScanDescriptor, d.InRange → (decodeDescriptor store.text store.numbers
          (encodeDescriptor store.text store.numbers d) = .ok d ↔ d.Kept store.numbers) :=
  ⟨fun _ _ _ _ hrange hpersist => SidecarStore.returns_persist_iff hrange hpersist,
    fun _ hrange => decodeDescriptor_encodeDescriptor_iff store.text store.numbers hrange⟩

namespace FloatBound

def store : SidecarStore := { SidecarRun.store with maxFiles := 10000, maxBytes := 16777216 }

/-- A file with one column whose only value is given. -/
def file (value : F64) : DataFile :=
  { SidecarRun.file with
    columnSizes := ⟨[(⟨1⟩, 64)], List.pairwise_singleton _ _⟩
    valueCounts := ⟨[(⟨1⟩, 1)], List.pairwise_singleton _ _⟩
    lowerBounds := ⟨[(⟨1⟩, .float64 value)], List.pairwise_singleton _ _⟩
    upperBounds := ⟨[(⟨1⟩, .float64 value)], List.pairwise_singleton _ _⟩
    splitOffsets := [4] }

def intent (value : F64) : PreparedFlush DataFile :=
  { SidecarRun.flush with dataFiles := [file value] }

def descriptor (value : F64) : SnapshotScanDescriptor where
  tableUuid := Uuid.ofNat 3
  nameSpace := "sales"
  tableName := "events"
  tableLocation := ⟨.s3, some "lake", "sales/events"⟩
  snapshotId := 42
  schema := ⟨0, [⟨1, "price", .float64, false, none⟩], []⟩
  partitionSpec := ⟨0, []⟩
  sortOrder := ⟨0, []⟩
  dataFiles := [file value]
  deleteFiles := []

def one : F64 := ⟨0x3FF0000000000000⟩

def infinity : F64 := ⟨0x7FF0000000000000⟩

/-- The directory after the intent has been written. -/
def dir (value : F64) : store.Sidecars :=
  OrdMap.empty.insert (Uuid.ofNat 3) (store.payload (intent value))

lemma validate_intent (v : F64) (h : v = one ∨ v = infinity) :
    PreparedStore.validate store.config (intent v) = .ok () := by
  rcases h with rfl | rfl <;> decide +kernel

lemma persist_intent {v : F64} (h : v = one ∨ v = infinity) :
    store.persist OrdMap.empty (intent v) none = (.ok (), dir v) := by
  unfold SidecarStore.persist
  rw [validate_intent v h]
  rfl

lemma intent_inRange (v : F64) : (intent v).InRange := { SidecarRun.inRange_flush with }

lemma descriptor_inRange (v : F64) : (descriptor v).InRange := by
  constructor <;>
    simp [descriptor, Wire.schemaDefinition, Wire.columnMeta, Wire.dataType, Wire.DataTypeInRange,
      Wire.partitionSpec, Wire.sortOrder, Wire.i32, Serde.record, Serde.Fields.cons,
      Serde.Fields.nil, Serde.list, Serde.intIn, Serde.string, Serde.bool,
      Storage.Wire.optionalString, Serde.option]

lemma file_kept_iff (val : F64) : (file val).Kept store.numbers ↔ val.isFinite = true := by
  rw [← FloatTexts.kept_ofBits]
  constructor
  · intro h
    exact h.lowerBounds (.float64 val) (by simp [file, OrdMap.values])
  · intro h
    have hbd : ∀ v ∈ [TeoScalar.float64 val], Storage.Wire.ScalarKept store.numbers v :=
      List.forall_mem_singleton.mpr h
    exact ⟨fun _ h => absurd h List.not_mem_nil, hbd, hbd⟩

lemma intent_kept_iff (v : F64) : (intent v).Kept store.numbers ↔ v.isFinite = true := by
  rw [← file_kept_iff]
  exact List.forall_mem_singleton

lemma descriptor_kept_iff (v : F64) : (descriptor v).Kept store.numbers ↔ v.isFinite = true := by
  rw [← file_kept_iff]
  exact ⟨fun h => List.forall_mem_singleton.mp h.1, fun h =>
    ⟨List.forall_mem_singleton.mpr h, fun _ h => absurd h List.not_mem_nil⟩⟩

lemma keeps_intent_iff (v : F64) : store.Keeps OrdMap.empty (intent v) ↔ v.isFinite = true := by
  rw [← intent_kept_iff]
  exact ⟨fun h => h.2, fun h => ⟨fun _ h => absurd h List.not_mem_nil, h⟩⟩

end FloatBound

open FloatBound in
theorem finite_bound_roundTrips : store.persist OrdMap.empty (intent one) none = (.ok (), dir one) ∧
      store.Returns (dir one) (intent one) ∧
      decodeDescriptor store.text store.numbers
        (encodeDescriptor store.text store.numbers (descriptor one)) = .ok (descriptor one) := by
  have hper := persist_intent (Or.inl rfl : one = one ∨ one = infinity)
  refine ⟨hper, ?_, ?_⟩
  · apply ((roundTrip_iff store).1 _ _ _ _ (intent_inRange one) hper).mpr
    exact (keeps_intent_iff one).mpr (by decide)
  · apply ((roundTrip_iff store).2 _ (descriptor_inRange one)).mpr
    exact (descriptor_kept_iff one).mpr (by decide)

open FloatBound in
/-- Infinite bounds are written as `null`: every listing fails, and the descriptor is not decoded.
-/
theorem infinite_bound_is_refused :
    store.persist OrdMap.empty (intent infinity) none = (.ok (), dir infinity) ∧
      store.list (dir infinity) = .error (.wal "parse prepared intent" (some "expected a number")) ∧
      ¬ store.Returns (dir infinity) (intent infinity) ∧
      decodeDescriptor store.text store.numbers
        (encodeDescriptor store.text store.numbers (descriptor infinity)) =
          .error "failed to decode SnapshotScanDescriptor (version 1): expected a number" := by
  refine ⟨persist_intent (Or.inr rfl), by rfl, ?_, by rfl⟩
  intro h
  have hkeeps := (SidecarStore.returns_persist_iff (intent_inRange infinity)
    (persist_intent (Or.inr rfl))).mp h
  exact absurd ((keeps_intent_iff infinity).mp hkeeps) (by decide)

end TeoDB.Distributed

import TeoDB.Distributed.DataFileKeys
import TeoDB.Ingest.Flush.Partitioning
import TeoDB.Lib.Serde
import TeoDB.Storage.SortedWriter

/-!
# The files of a flush and their two validations

A flush writes the rows of each partition to rolled files below the directories of the
partition and of the writer. The intent that is built from the files is checked twice: by
the flusher, which knows the table, and by the sidecar store, which sees the keys only.
Both accept every intent that is built from written files.

## Implementation notes

The value of a column in the sort kernel, the settings of row groups and the libraries are
parameters. Uploads succeed, as the files exist. A writer has an identity that is not nil, an epoch
and generations that have begun, and a clock after 1970.
-/

namespace TeoDB.Ingest.Flush

open TeoDB.Core TeoDB.Core.PlainText Lib Catalog Storage Storage.Wal
  Distributed

/-- What a flush reads of the metadata of a table. -/
structure FlushMetadata where
  tableUuid : Uuid
  nameSpace : String
  tableName : String
  tableLocation : ObjectLocation
  currentSnapshotId : Option Int
  currentSchemaId : Int
  currentPartitionSpecId : Int
  currentSortOrderId : Int
  schemas : List SchemaDefinition
  partitionSpecs : List PartitionSpec
  sortOrders : List SortOrder
  not_nil : tableUuid.isNil = false

/-- What the validations read of a data file. -/
structure FlushDataFile where
  path : ObjectLocation
  content : DataContent
  format : FileFormat
  schemaId : Int
  partitionSpecId : Int
  partitionValues : PartitionValues
  recordCount : Nat

/-- Who flushes, and what. -/
structure FlushContext where
  writerId : WriterId
  writerEpoch : WriterEpoch
  commitId : CommitId
  generations : GenerationRange
  preparedAtMs : Int
  writer_not_nil : writerId.uuid.isNil = false
  commit_not_nil : commitId.uuid.isNil = false
  epoch_ne_zero : writerEpoch ≠ WriterEpoch.zero
  generations_begun : 0 < generations.lo ∧ generations.lo ≤ generations.hi
  preparedAtMs_nonneg : 0 ≤ preparedAtMs

structure FlushLibraries (V : Type) [LinearOrder V] where
  transforms : IcebergTransforms
  keyTexts : KeyTexts
  toHumanString : PartitionTransform → TeoDataType → TeoScalar → TeoDBResult String
  kernel : SortKernel V
  encoder : ParquetEncoder (BatchRow V)
  cell : TeoScalar → Option V
  rowGroupTargetBytes : Nat
  rowGroupTargetRows : Nat

namespace FlushMetadata

variable (metadata : FlushMetadata)

def ident : TableIdent := ⟨metadata.nameSpace, metadata.tableName⟩

def schemaById (schemaId : Int) : Option SchemaDefinition :=
  metadata.schemas.find? fun schema => schema.schemaId = schemaId

def partitionSpecById (specId : Int) : Option PartitionSpec :=
  metadata.partitionSpecs.find? fun spec => spec.specId = specId

def currentSchema : TeoDBResult SchemaDefinition :=
  match metadata.schemaById metadata.currentSchemaId with
  | some schema => .ok schema
  | none => .error (.internal
      s!"current_schema_id {metadata.currentSchemaId} not found in schemas list")

def currentPartitionSpec : TeoDBResult PartitionSpec :=
  match metadata.partitionSpecById metadata.currentPartitionSpecId with
  | some spec => .ok spec
  | none => .error (.internal (s!"current_partition_spec_id {metadata.currentPartitionSpecId} " ++
      "not found in partition_specs list"))

def currentSortOrder : SortOrder :=
  (metadata.sortOrders.find? fun order => order.orderId = metadata.currentSortOrderId).getD ⟨0, []⟩

end FlushMetadata

section

variable {V : Type} [LinearOrder V] (libs : FlushLibraries V) (metadata : FlushMetadata)
  (context : FlushContext) (schema : SchemaDefinition) (spec : PartitionSpec)

/-- Write rows of one partition. -/
def writeRolled (target : ObjectLocation) (values : PartitionValues) (batches : List (List Row)) :
    List FlushDataFile :=
  let writeSpec : WriteSpec := ⟨schema.columns.map fun column => some column.id,
    metadata.currentSortOrder, libs.rowGroupTargetBytes, libs.rowGroupTargetRows⟩
  let cells := batches.map fun batch => batch.map fun row => row.map libs.cell
  (writeSortedRolled libs.kernel libs.encoder target cells writeSpec).map fun file =>
    { path := file.path
      content := .data
      format := .parquet
      schemaId := metadata.currentSchemaId
      partitionSpecId := spec.specId
      partitionValues := values
      recordCount := file.recordCount }

def writeGroups : Nat → List PartitionedBatches → TeoDBResult (List FlushDataFile)
  | _, [] => .ok []
  | idx, group :: rest =>
    icebergPartitionPath libs.toHumanString schema spec group.partitionValues.find? >>=
      fun path =>
        let target := flushFileLocation metadata.tableLocation context.writerId context.commitId
          (some (path, idx))
        (writeGroups (idx + 1) rest).map fun others =>
          writeRolled libs metadata schema spec target group.partitionValues group.batches ++
            others

def writeFlushDataFiles (batches : List (List Row)) : Fallible (List FlushDataFile) :=
  match metadata.currentSchema, metadata.currentPartitionSpec with
  | .error error, _ => some (.error error)
  | .ok _, .error error => some (.error error)
  | .ok schema, .ok spec =>
    if spec.fields.isEmpty then
      let target := flushFileLocation metadata.tableLocation context.writerId context.commitId
        none
      some (.ok (writeRolled libs metadata schema spec target OrdMap.empty batches))
    else
      Fallible.bind (partitionBatches libs.transforms libs.keyTexts schema spec batches)
        fun groups => some (writeGroups libs metadata context schema spec 0 groups)

end

/-- The intent of a flush. -/
def FlushContext.prepare (context : FlushContext) (metadata : FlushMetadata)
    (batches : List (List Row)) (files : List FlushDataFile) : PreparedFlush FlushDataFile :=
  .new metadata.ident metadata.tableUuid context.writerId context.writerEpoch context.commitId
    context.generations (MachineInt.wrappingSum (batches.map List.length)) context.preparedAtMs
    files metadata.currentSnapshotId

section

variable (toHumanString : PartitionTransform → TeoDataType → TeoScalar → TeoDBResult String)
  (metadata : FlushMetadata) (prepared : PreparedFlush FlushDataFile)

/-- The directory in which a file has to be. -/
def dataFilePrefix (file : FlushDataFile) : TeoDBResult (List Char) :=
  match metadata.schemaById file.schemaId, metadata.partitionSpecById file.partitionSpecId with
  | none, _ => .error (.writeProtocol metadata.ident
      s!"prepared data file references unknown schema {file.schemaId}")
  | some _, none => .error (.writeProtocol metadata.ident
      s!"prepared data file references unknown partition spec {file.partitionSpecId}")
  | some schema, some spec =>
    let dataPrefix := trimEndMatches metadata.tableLocation.key.toList ++ "/data/".toList
    let writer := uuidChars prepared.writerId.uuid ++ ['/']
    if spec.fields.isEmpty then .ok (dataPrefix ++ writer)
    else
      (icebergPartitionPath toHumanString schema spec file.partitionValues.find?).map fun path =>
        dataPrefix ++ path ++ '/' :: writer

def checkDataFile (file : FlushDataFile) : TeoDBResult Unit :=
  dataFilePrefix toHumanString metadata prepared file >>= fun dir =>
    let key := file.path.key.toList
    let relativeName := strip? dir key
    let commitPrefix := uuidChars prepared.commitId.uuid ++ ['-']
    let dirText := String.ofList dir
    let commitText := String.ofList (uuidChars prepared.commitId.uuid)
    if relativeName.all (fun name => name == [] || name.contains '/') ∨ key.head? = some '/' ∨
        (key.splitOn '/').any (· == "..".toList) ∨
        file.path.scheme ≠ metadata.tableLocation.scheme ∨
        file.path.bucket ≠ metadata.tableLocation.bucket ∨ file.content ≠ .data ∨
        !relativeName.any (fun name => commitPrefix.isPrefixOf name) then
      .error (.writeProtocol metadata.ident
        (s!"data-file path '{file.path.key}' is not an exact member of commit " ++
          s!"{commitText} under '{dirText}'"))
    else .ok ()

def validatePreparedDataFiles : TeoDBResult Unit :=
  if prepared.tableUuid ≠ metadata.tableUuid ∨ prepared.table ≠ metadata.ident then
    .error (.writeProtocol metadata.ident
      "prepared intent does not match the loaded table incarnation")
  else if prepared.dataFiles.isEmpty then
    .error (.writeProtocol metadata.ident "prepared intent contains no data files")
  else (prepared.dataFiles.mapM (checkDataFile toHumanString metadata prepared)).map fun _ => ()

end

def FlushDataFile.head (file : FlushDataFile) : DataFileHead :=
  ⟨file.path.scheme, file.path.bucket, file.path.key, file.content, file.format, file.recordCount⟩

/-- The settings of the sidecar store of a writer. -/
def sidecarConfig (writerId : WriterId) (maxFiles maxBytes : Nat)
    (payloadLen : PreparedFlush FlushDataFile → Nat) : PreparedConfig FlushDataFile where
  expectedWriter := writerId
  maxFiles := maxFiles
  maxBytes := maxBytes
  uuidToString u := String.ofList (uuidChars u)
  head := FlushDataFile.head
  payloadLen := payloadLen
  readBack := .ok

/-- What is known of a written file: its directories, and what follows the commit in its name. -/
structure Flushed
    (toHumanString : PartitionTransform → TeoDataType → TeoScalar → TeoDBResult String)
    (metadata : FlushMetadata) (context : FlushContext) (schema : SchemaDefinition)
    (spec : PartitionSpec) (file : FlushDataFile) (dirs : List (List Char)) (ending : List Char) :
    Prop where
  scheme : file.path.scheme = metadata.tableLocation.scheme
  bucket : file.path.bucket = metadata.tableLocation.bucket
  content : file.content = .data
  format : file.format = .parquet
  schemaId : file.schemaId = metadata.currentSchemaId
  partitionSpecId : file.partitionSpecId = spec.specId
  path : spec.fields ≠ [] → ∃ path, path ++ ['/'] = dirs.flatMap (· ++ ['/']) ∧
    icebergPartitionPath toHumanString schema spec file.partitionValues.find? = .ok path
  length : dirs.length = spec.fields.length
  named : ∀ dir ∈ dirs, '/' ∉ dir ∧ '=' ∈ dir
  key : file.path.key.toList = trimEndMatches metadata.tableLocation.key.toList ++
    '/' :: ("data".toList ++ '/' :: (dirs.flatMap (· ++ ['/']) ++
      (uuidChars context.writerId.uuid ++ '/' :: (uuidChars context.commitId.uuid ++ ending))))
  hyphen : ['-'] <+: ending
  plain : ∀ c ∈ ending, isPlain c = true
  parquet : ".parquet".toList <:+ ending

/-- How the name of a file ends. -/
def fileEnding (mark : List Char) (index : Nat) : List Char :=
  mark ++ "-f".toList ++ paddedIndex index ++ ".parquet".toList

/-- The files of a stream are numbered, the first one with zero. -/
lemma path_of_mem_writeSortedStream {R : Type} {encoded : List (List R) → Nat} {bs : Nat}
    {base : ObjectLocation} {front : List Char}
    (hb : base.key.toList = front ++ "-f0000.parquet".toList) {batches : List (List R)}
    {file : ObjectLocation × List (List R)}
    (h : file ∈ writeSortedStream encoded bs base batches) :
    ∃ i, file.1 = { base with
      key := String.ofList (front ++ "-f".toList ++ paddedIndex i ++ ".parquet".toList) } := by
  rcases location_writeBatches h with ⟨_, hf⟩ | ⟨i, _, hf⟩
  · refine ⟨0, ?_⟩
    have hz : "-f".toList ++ paddedIndex 0 ++ ".parquet".toList = "-f0000.parquet".toList := by
      decide
    rw [hf, List.append_assoc, List.append_assoc, ← List.append_assoc "-f".toList, hz,
      ← hb, String.ofList_toList]
  · exact ⟨i, by rw [hf, fileLocation, hb, stripSuffix?_append]⟩

lemma intercalate_append_slash {dirs : List (List Char)} (h : dirs ≠ []) :
    ['/'].intercalate dirs ++ ['/'] = dirs.flatMap (· ++ ['/']) := by
  induction dirs with
  | nil => exact absurd rfl h
  | cons dir rest ih =>
    cases rest with
    | nil => simp
    | cons second rest =>
      rw [List.intercalate_cons_cons, List.flatMap_cons, ← ih (List.cons_ne_nil _ _)]
      simp

section

variable {V : Type} [LinearOrder V] {libs : FlushLibraries V} {metadata : FlushMetadata}
  {context : FlushContext} {schema : SchemaDefinition} {spec : PartitionSpec}
  {target : ObjectLocation} {values : PartitionValues} {batches : List (List Row)}

lemma sum_recordCount_writeRolled :
    ((writeRolled libs metadata schema spec target values batches).map
      FlushDataFile.recordCount).sum = batches.flatten.length := by
  rw [writeRolled, List.map_map]
  refine (sum_recordCount_writeSortedRolled _ _ _ _ _).trans ?_
  rw [← List.map_flatten, List.length_map]

lemma keys_writeRolled_nodup : ((writeRolled libs metadata schema spec target values batches).map
      fun file => file.path.key).Nodup := by
  rw [writeRolled, List.map_map]
  exact keys_writeSortedRolled_nodup _ _ _ _ _

/-- The files of a partition by the directories and the mark of their target. -/
lemma flushed_of_mem_writeRolled {dirs : List (List Char)} {mark : List Char}
    (htg : target = { metadata.tableLocation with
      key := String.ofList (trimEndMatches metadata.tableLocation.key.toList ++
        '/' :: ("data".toList ++ '/' :: (dirs.flatMap (· ++ ['/']) ++
          (uuidChars context.writerId.uuid ++ '/' :: (uuidChars context.commitId.uuid ++ mark ++
            "-f0000.parquet".toList))))) })
    (hp : spec.fields ≠ [] → ∃ path, path ++ ['/'] = dirs.flatMap (· ++ ['/']) ∧
      icebergPartitionPath libs.toHumanString schema spec values.find? = .ok path)
    (hlen : dirs.length = spec.fields.length) (hnm : ∀ dir ∈ dirs, '/' ∉ dir ∧ '=' ∈ dir)
    (hhyp : ∀ rest, ['-'] <+: mark ++ '-' :: rest) (hm : ∀ c ∈ mark, isPlain c = true)
    {file : FlushDataFile}
    (h : file ∈ writeRolled libs metadata schema spec target values batches) :
    ∃ i, Flushed libs.toHumanString metadata context schema spec file dirs (fileEnding mark i) := by
  obtain ⟨wr, hwr, rfl⟩ := List.mem_map.mp h
  obtain ⟨chunked, _, hfs⟩ := exists_writeSortedRolled libs.kernel libs.encoder target _ _
  rw [hfs] at hwr
  obtain ⟨opened, hope, rfl⟩ := List.mem_map.mp hwr
  have hb : target.key.toList = (trimEndMatches metadata.tableLocation.key.toList ++
      '/' :: ("data".toList ++ '/' :: (dirs.flatMap (· ++ ['/']) ++
        (uuidChars context.writerId.uuid ++ '/' :: (uuidChars context.commitId.uuid ++ mark))))) ++
      "-f0000.parquet".toList := by simp [htg]
  obtain ⟨i, hloc⟩ := path_of_mem_writeSortedStream hb hope
  refine ⟨i, ?_⟩
  constructor
  · simp [finishFile, hloc, htg]
  · simp [finishFile, hloc, htg]
  · rfl
  · rfl
  · rfl
  · rfl
  · exact hp
  · exact hlen
  · exact hnm
  · simp [finishFile, hloc, fileEnding]
  · simpa [fileEnding] using hhyp _
  · apply isPlain_append (isPlain_append (isPlain_append hm _) _) isPlain_parquet
    · exact List.all_eq_true.mp (by decide)
    · exact fun _ => isPlain_of_mem_paddedIndex
  · exact List.suffix_append _ _

lemma Flushed.ending_eq {a b : FlushDataFile} {dirs dirs' : List (List Char)}
    {ending ending' : List Char}
    (ha : Flushed libs.toHumanString metadata context schema spec a dirs ending)
    (hb : Flushed libs.toHumanString metadata context schema spec b dirs' ending')
    (h : a.path.key = b.path.key) : ending = ending' := by
  have hsla {e : List Char} (he : ∀ c ∈ e, isPlain c = true) :
      '/' ∉ uuidChars context.commitId.uuid ++ e :=
    ((plainName_uuidChars context.commitId.uuid).append he).slash_notMem
  have hl := congrArg (fun key : String => (segments key.toList).getLast?) h
  simp only [ha.key, hb.key, ← List.append_assoc _ (uuidChars context.writerId.uuid),
    segments_append, segments_of_notMem (hsla ha.plain),
    segments_of_notMem (hsla hb.plain)] at hl
  simpa using hl

lemma takeWhile_paddedIndex (i : Nat) (rest : List Char) :
    (paddedIndex i ++ '-' :: rest).takeWhile Char.isDigit = paddedIndex i := by
  rw [List.takeWhile_append_of_pos fun c hc => isDigit_of_mem_paddedIndex hc,
    List.takeWhile_cons_of_neg (by decide), List.append_nil]

/-- The files of different partitions have different marks. -/
lemma fileEnding_injective {j j' i i' : Nat} (h : fileEnding ("-p".toList ++ paddedIndex j) i =
      fileEnding ("-p".toList ++ paddedIndex j') i') : j = j' := by
  apply paddedIndex_injective
  have hdg := congrArg (fun ending : List Char => (ending.drop 2).takeWhile Char.isDigit) h
  simpa [fileEnding, takeWhile_paddedIndex] using hdg

/-- The directories of a partition, one for each field. -/
lemma dirs_of_icebergPartitionPath {values : Int → Option TeoScalar} {path : List Char}
    (hfie : spec.fields ≠ [])
    (h : icebergPartitionPath libs.toHumanString schema spec values = .ok path) :
    ∃ dirs : List (List Char), path ++ ['/'] = dirs.flatMap (· ++ ['/']) ∧
      dirs.length = spec.fields.length ∧ ∀ dir ∈ dirs, '/' ∉ dir ∧ '=' ∈ dir := by
  cases hcom : partitionComponents libs.toHumanString schema spec values with
  | error e => simp [icebergPartitionPath, hcom, Except.map] at h
  | ok components =>
    simp only [icebergPartitionPath, hcom, Except.map, Except.ok.injEq] at h
    have hlen : (components.map componentDir).length = spec.fields.length := by
      rw [List.length_map, partitionComponents_length hcom]
    refine ⟨components.map componentDir, ?_, hlen, ?_⟩
    · rw [← h]
      apply intercalate_append_slash
      rintro hnil
      rw [hnil] at hlen
      exact hfie (List.length_eq_zero_iff.mp hlen.symm)
    · intro dir hdir
      obtain ⟨component, _, rfl⟩ := List.mem_map.mp hdir
      simp [componentDir, slash_notMem_icebergUrlEncode]

lemma writeGroups_flushed {gs : List PartitionedBatches} {fs : List FlushDataFile}
    {idx : Nat} (hfie : spec.fields ≠ [])
    (h : writeGroups libs metadata context schema spec idx gs = .ok fs) :
    (∀ file ∈ fs, ∃ dirs j i, idx ≤ j ∧
      Flushed libs.toHumanString metadata context schema spec file dirs
        (fileEnding ("-p".toList ++ paddedIndex j) i)) ∧ (fs.map fun file => file.path.key).Nodup ∧
      (fs.map FlushDataFile.recordCount).sum = (gs.flatMap fun g => g.batches.flatten).length := by
  induction gs generalizing idx fs with
  | nil =>
    cases h
    simp
  | cons g rest ih =>
    obtain ⟨path, hp, h⟩ := bind_eq_ok_iff.mp h
    cases hots : writeGroups libs metadata context schema spec (idx + 1) rest with
    | error e => simp [hots, Except.map] at h
    | ok others =>
      simp only [hots, Except.map, Except.ok.injEq] at h
      subst h
      obtain ⟨hfl, hnd, hsum⟩ := ih hots
      obtain ⟨dirs, hd, hlen, hnm⟩ := dirs_of_icebergPartitionPath hfie hp
      have hm : ∀ c ∈ "-p".toList ++ paddedIndex idx, isPlain c = true :=
        isPlain_append (List.all_eq_true.mp (by decide)) fun _ => isPlain_of_mem_paddedIndex
      have hfst := fun file => @flushed_of_mem_writeRolled V _ libs metadata context schema
        spec (flushFileLocation metadata.tableLocation context.writerId context.commitId
          (some (path, idx))) g.partitionValues g.batches dirs
        ("-p".toList ++ paddedIndex idx) (by simp [flushFileLocation, ← hd])
        (fun _ => ⟨path, hd, hp⟩) hlen hnm (fun rest => by simp) hm file
      refine ⟨?_, ?_, ?_⟩
      · intro file hf
        rcases List.mem_append.mp hf with hf | hf
        · obtain ⟨i, hf⟩ := hfst file hf
          exact ⟨dirs, idx, i, le_rfl, hf⟩
        · obtain ⟨dirs', j, i, hj, hf⟩ := hfl file hf
          exact ⟨dirs', j, i, by omega, hf⟩
      · rw [List.map_append, List.nodup_append]
        refine ⟨keys_writeRolled_nodup, hnd, ?_⟩
        rintro _ ha _ hb rfl
        obtain ⟨a, hmem, rfl⟩ := List.mem_map.mp ha
        obtain ⟨b, hmem', heq⟩ := List.mem_map.mp hb
        obtain ⟨i, ha⟩ := hfst a hmem
        obtain ⟨_, j, index', hj, hb⟩ := hfl b hmem'
        have := fileEnding_injective (ha.ending_eq hb heq.symm)
        omega
      · rw [List.map_append, List.sum_append, sum_recordCount_writeRolled, hsum,
          List.flatMap_cons, List.length_append]

lemma writeFlushDataFiles_flushed {fs : List FlushDataFile}
    (h : writeFlushDataFiles libs metadata context batches = some (.ok fs)) :
    ∃ schema spec, metadata.currentSchema = .ok schema ∧ metadata.currentPartitionSpec = .ok spec ∧
      (∀ file ∈ fs, ∃ dirs ending,
        Flushed libs.toHumanString metadata context schema spec file dirs ending) ∧
      (fs.map fun file => file.path.key).Nodup ∧
      (fs.map FlushDataFile.recordCount).sum = batches.flatten.length := by
  unfold writeFlushDataFiles at h
  split at h
  · cases h
  · cases h
  · rename_i schema spec hsch hs
    refine ⟨schema, spec, hsch, hs, ?_⟩
    split_ifs at h with hem
    · have hflds : spec.fields = [] := List.isEmpty_iff.mp hem
      cases h
      refine ⟨fun file hf => ?_, keys_writeRolled_nodup, sum_recordCount_writeRolled⟩
      obtain ⟨index, hf⟩ := @flushed_of_mem_writeRolled V _ libs metadata context schema spec _ _
        _ [] [] (by simp [flushFileLocation]) (fun hne => absurd hflds hne) (by simp [hflds])
        (by simp) (fun rest => by simp) (by simp) file hf
      exact ⟨_, _, hf⟩
    · obtain ⟨groups, hgs, hw⟩ := Fallible.bind_eq_ok_iff.mp h
      obtain ⟨keyed, table, hr, _, hdes, rfl⟩ := partitionBatches_eq_ok hgs
      obtain ⟨hfl, hnd, hsum⟩ := writeGroups_flushed (by simpa using hem) (Option.some.inj hw)
      refine ⟨fun file hf => ?_, hnd, ?_⟩
      · obtain ⟨dirs, _, _, _, hf⟩ := hfl file hf
        exact ⟨dirs, _, hf⟩
      · rw [hsum, hdes.rows_perm.length_eq, hr]

end

/-- A key of segments that neither are empty nor lead elsewhere. -/
def NormalisedKey (key : String) : Prop :=
  ∀ segment ∈ segments key.toList, segment ≠ [] ∧ segment ≠ ['.'] ∧ segment ≠ ['.', '.']

lemma NormalisedKey.trimEndMatches {key : String} (h : NormalisedKey key) :
    trimEndMatches key.toList = key.toList := by
  have hl : ∀ rest, key.toList.reverse ≠ '/' :: rest := by
    intro rest hr
    have hkey : key.toList = rest.reverse ++ '/' :: [] := by
      rw [← List.reverse_reverse key.toList, hr, List.reverse_cons]
    have hnil : [] ∈ segments key.toList := by
      rw [hkey, segments_append]
      simp [segments]
    exact (h [] hnil).1 rfl
  rw [Distributed.trimEndMatches]
  cases hrev : key.toList.reverse with
  | nil => rw [List.dropWhile_nil, ← hrev, List.reverse_reverse]
  | cons c rest =>
    have hne : c ≠ '/' := fun hc => hl rest (by rw [hrev, hc])
    rw [List.dropWhile_cons, if_neg (by simpa using hne), ← hrev, List.reverse_reverse]

section

variable {toHumanString : PartitionTransform → TeoDataType → TeoScalar → TeoDBResult String}
  {metadata : FlushMetadata} {context : FlushContext} {schema : SchemaDefinition}
  {spec : PartitionSpec} {file : FlushDataFile} {dirs : List (List Char)} {ending : List Char}

lemma Flushed.plainName
    (h : Flushed toHumanString metadata context schema spec file dirs ending) :
    PlainName (uuidChars context.commitId.uuid ++ ending) :=
  (plainName_uuidChars _).append h.plain

lemma Flushed.begins (h : Flushed toHumanString metadata context schema spec file dirs ending) :
    (uuidChars context.commitId.uuid ++ ['-']).isPrefixOf
      (uuidChars context.commitId.uuid ++ ending) = true := by
  rw [List.isPrefixOf_iff_prefix, List.prefix_append_right_inj]
  exact h.hyphen

lemma segments_flatMap (h : ∀ dir ∈ dirs, '/' ∉ dir) (rest : List Char) :
    segments (dirs.flatMap (· ++ ['/']) ++ rest) = dirs ++ segments rest := by
  induction dirs with
  | nil => rfl
  | cons dir others ih =>
    rw [List.forall_mem_cons] at h
    rw [List.flatMap_cons, List.append_assoc, List.append_assoc, List.singleton_append,
      segments_append, segments_of_notMem h.1, ih h.2]
    rfl

lemma isWriterOwned_append {wr name : List Char} {bef : List (List Char)}
    (hn : name ≠ wr) (hd : "data".toList ∈ bef) :
    PreparedStore.isWriterOwned wr (bef ++ [wr, name]) = true := by
  have hwtr : PreparedStore.rposition wr (bef ++ [wr, name]) = some bef.length := by
    simp [PreparedStore.rposition, List.findIdx?_cons, hn]
  obtain ⟨i, hix⟩ : ∃ i, bef.findIdx? (· == "data".toList) = some i := by
    apply Option.isSome_iff_exists.mp
    rw [List.findIdx?_isSome]
    exact List.any_eq_true.mpr ⟨_, hd, beq_self_eq_true _⟩
  have hlt : i < bef.length := (List.findIdx?_eq_some_iff_findIdx_eq.mp hix).1
  have hf : (bef ++ [wr, name]).findIdx? (· == "data".toList) = some i := by
    rw [List.findIdx?_append, hix]
    rfl
  rw [PreparedStore.isWriterOwned, hwtr, hf]
  simp [hlt]

variable {cfg : PreparedConfig FlushDataFile} {prepared : PreparedFlush FlushDataFile}

section

variable (hkey : NormalisedKey metadata.tableLocation.key)
  (h : Flushed toHumanString metadata context schema spec file dirs ending)

include hkey h

lemma Flushed.segments_key :
    segments file.path.key.toList = (segments metadata.tableLocation.key.toList ++
      "data".toList :: dirs) ++
        [uuidChars context.writerId.uuid, uuidChars context.commitId.uuid ++ ending] := by
  have hd : '/' ∉ "data".toList := by decide
  rw [h.key, hkey.trimEndMatches, segments_append, segments_append, segments_of_notMem hd,
    segments_flatMap fun dir hdir => (h.named dir hdir).1, segments_append,
    segments_of_notMem (plainName_uuidChars _).slash_notMem,
    segments_of_notMem h.plainName.slash_notMem]
  simp

lemma Flushed.segment_ne {seg : List Char} (hseg : seg ∈ segments file.path.key.toList) :
    seg ≠ [] ∧ seg ≠ ['.', '.'] := by
  have hl {name : List Char} (hn : PlainName name) : name ≠ [] ∧ name ≠ ['.', '.'] := by
    have := hn.long
    constructor <;> rintro rfl <;> simp at this
  rw [h.segments_key hkey] at hseg
  simp only [List.mem_append, List.mem_cons, List.not_mem_nil, or_false] at hseg
  rcases hseg with (htb | rfl | hdir) | rfl | rfl
  · exact ⟨(hkey seg htb).1, (hkey seg htb).2.2⟩
  · decide
  · have hequ := (h.named seg hdir).2
    constructor <;> rintro rfl <;> simp at hequ
  · exact hl (plainName_uuidChars _)
  · exact hl h.plainName

lemma Flushed.head_ne : file.path.key.toList.head? ≠ some '/' := by
  intro hh
  obtain ⟨rest, hr⟩ := List.head?_eq_some_iff.mp hh
  have hnil : [] ∈ segments file.path.key.toList := by
    rw [hr, ← List.nil_append ('/' :: rest), segments_append]
    simp [segments]
  exact (h.segment_ne hkey hnil).1 rfl

lemma Flushed.dataFileError (ht : cfg.uuidToString = fun u => String.ofList (uuidChars u))
    (hwtr : prepared.writerId = context.writerId) (hcommit : prepared.commitId = context.commitId) :
    PreparedStore.dataFileError cfg prepared file.head = none := by
  have hsegs : file.path.key.toList.splitOn '/' = _ := h.segments_key hkey
  have hn : uuidChars context.commitId.uuid ++ ending ≠ uuidChars context.writerId.uuid := by
    intro heq
    have hlen := congrArg List.length heq
    obtain ⟨rest, rfl⟩ := h.hyphen
    simp [length_uuidChars] at hlen
  have hany : (file.path.key.toList.splitOn '/').any
      (fun component => component == [] || component == ['.', '.']) = false := by
    apply List.any_eq_false.mpr
    intro component hcom
    simpa using h.segment_ne hkey hcom
  have hd : "data".toList ∈ segments metadata.tableLocation.key.toList ++
      "data".toList :: dirs := List.mem_append_right _ List.mem_cons_self
  have hown := isWriterOwned_append hn hd
  have he : ".parquet".toList.isSuffixOf (uuidChars context.commitId.uuid ++ ending) = true := by
    rw [List.isSuffixOf_iff_suffix]
    exact h.parquet.trans (List.suffix_append _ _)
  rw [← hsegs] at hown
  have hl : (file.path.key.toList.splitOn '/').getLast?.getD [] =
      uuidChars context.commitId.uuid ++ ending := by
    rw [hsegs, List.getLast?_append]
    rfl
  unfold PreparedStore.dataFileError
  simp only [FlushDataFile.head, ht, hwtr, hcommit, String.toList_ofList, hl, hany, hown,
    h.begins, he, h.content, h.format]
  simp [h.head_ne hkey]

lemma Flushed.checkDataFile (hsch : metadata.schemaById metadata.currentSchemaId = some schema)
    (hs : metadata.partitionSpecById spec.specId = some spec)
    (hwtr : prepared.writerId = context.writerId) (hcommit : prepared.commitId = context.commitId) :
    checkDataFile toHumanString metadata prepared file = .ok () := by
  have hdir : dataFilePrefix toHumanString metadata prepared file =
      .ok (Distributed.trimEndMatches metadata.tableLocation.key.toList ++ '/' :: ("data".toList ++
        '/' :: (dirs.flatMap (· ++ ['/']) ++ (uuidChars context.writerId.uuid ++ ['/'])))) := by
    rw [dataFilePrefix, h.schemaId, h.partitionSpecId, hsch, hs, hwtr]
    dsimp only
    split_ifs with hem
    · have hnil : dirs = [] := by
        rw [← List.length_eq_zero_iff, h.length, List.isEmpty_iff.mp hem, List.length_nil]
      simp [hnil]
    · obtain ⟨path, hp, hok⟩ := h.path (by simpa using hem)
      simp [hok, Except.map, ← hp]
  have hn := h.plainName
  have hem : (uuidChars context.commitId.uuid ++ ending == []) = false := by
    rw [beq_eq_false_iff_ne]
    rintro hnil
    have hl := hn.long
    rw [hnil] at hl
    exact absurd hl (by decide)
  have hslash : (uuidChars context.commitId.uuid ++ ending).contains '/' = false := by
    simpa using hn.slash_notMem
  have hupw : (file.path.key.toList.splitOn '/').any (· == "..".toList) = false := by
    apply List.any_eq_false.mpr
    intro component hcom
    simpa using (h.segment_ne hkey hcom).2
  rw [Flush.checkDataFile, hdir]
  change (if _ then _ else _) = _
  rw [if_neg]
  have hstrip : strip? (Distributed.trimEndMatches metadata.tableLocation.key.toList ++ '/' ::
      ("data".toList ++ '/' :: (dirs.flatMap (· ++ ['/']) ++
        (uuidChars context.writerId.uuid ++ ['/'])))) file.path.key.toList =
      some (uuidChars context.commitId.uuid ++ ending) := by
    rw [← strip?_append _ (uuidChars context.commitId.uuid ++ ending), h.key]
    congr 1
    simp
  rw [hstrip, hcommit]
  simp only [Option.all_some, Option.any_some, hem, hslash, hupw, h.begins, h.content,
    h.scheme, h.bucket]
  simp [h.head_ne hkey]

end

lemma key_eq_of_uniquePath {a b : DataFileHead} (hsch : a.scheme = b.scheme)
    (hbk : a.bucket = b.bucket)
    (h : PreparedStore.uniquePath a = PreparedStore.uniquePath b) : a.key = b.key := by
  simp only [PreparedStore.uniquePath, hsch, hbk] at h
  have hcha := congrArg String.toList h
  simp only [String.toList_append] at hcha
  exact String.toList_injective (List.append_cancel_left hcha)

lemma validateFiles_eq_ok {fs : List DataFileHead} {seen : List String} {rs : Nat}
    (her : ∀ file ∈ fs, PreparedStore.dataFileError cfg prepared file = none)
    (hnd : (fs.map PreparedStore.uniquePath).Nodup)
    (hs : ∀ file ∈ fs, PreparedStore.uniquePath file ∉ seen)
    (hsum : rs + (fs.map DataFileHead.recordCount).sum ≤ MachineInt.u64Max) :
    PreparedStore.validateFiles cfg prepared seen rs fs =
      .ok (rs + (fs.map DataFileHead.recordCount).sum) := by
  induction fs generalizing seen rs with
  | nil => rfl
  | cons file rest ih =>
    rw [List.forall_mem_cons] at her hs
    rw [List.map_cons, List.nodup_cons] at hnd
    rw [List.map_cons, List.sum_cons, ← Nat.add_assoc] at hsum ⊢
    have hadd : MachineInt.checkedAdd rs file.recordCount = some (rs + file.recordCount) :=
      MachineInt.checkedAdd_eq_some.mpr ⟨by omega, rfl⟩
    rw [PreparedStore.validateFiles, her.1]
    simp only [if_neg hs.1, hadd]
    apply ih her.2 hnd.2 _ hsum
    intro o hot hmem
    rcases List.mem_cons.mp hmem with heq | hmem
    · exact hnd.1 (heq ▸ List.mem_map_of_mem hot)
    · exact hs.2 o hot hmem

lemma validate_eq_ok (hinv : PreparedStore.invalid cfg prepared = none)
    (hfs : PreparedStore.validateFiles cfg prepared [] 0 (prepared.dataFiles.map cfg.head) =
      .ok prepared.recordCount) : PreparedStore.validate cfg prepared = .ok () := by
  rw [PreparedStore.validate, hinv]
  simp only [hfs, ne_eq, not_true_eq_false, if_false]

end

lemma invalid_prepare {metadata : FlushMetadata} {context : FlushContext}
    {maxFiles maxBytes : Nat} {payloadLen : PreparedFlush FlushDataFile → Nat}
    {batches : List (List Row)} {fs : List FlushDataFile}
    (hct : MachineInt.wrappingSum (batches.map List.length) ≠ 0) (hfs : fs ≠ [])
    (hmax : fs.length ≤ maxFiles) :
    PreparedStore.invalid (sidecarConfig context.writerId maxFiles maxBytes payloadLen)
      (context.prepare metadata batches fs) = none := by
  have hbegun := context.generations_begun
  have hlo : ¬(context.generations.lo = 0 ∨ context.generations.lo > context.generations.hi) := by
    omega
  unfold PreparedStore.invalid
  simp only [FlushContext.prepare, PreparedFlush.new, sidecarConfig, ne_eq, not_true_eq_false,
    if_false, metadata.not_nil, context.writer_not_nil, context.commit_not_nil,
    context.epoch_ne_zero, Bool.false_eq_true, hlo, hct, not_lt.mpr context.preparedAtMs_nonneg,
    gt_iff_lt, not_lt.mpr hmax]
  simpa using hfs

/-- The intent of written files passes both validations, and each file is below the directories of
its partition. -/
theorem flush_output_validates {V : Type} [LinearOrder V] (libs : FlushLibraries V)
    (metadata : FlushMetadata) (context : FlushContext) (maxFiles maxBytes : Nat)
    (payloadLen : PreparedFlush FlushDataFile → Nat) (batches : List (List Row))
    (files : List FlushDataFile) (hkey : NormalisedKey metadata.tableLocation.key)
    (hrows : batches.flatten ≠ []) (hfit : batches.flatten.length ≤ MachineInt.u64Max)
    (hwrite : writeFlushDataFiles libs metadata context batches = some (.ok files))
    (hmax : files.length ≤ maxFiles) :
    validatePreparedDataFiles libs.toHumanString metadata
        (context.prepare metadata batches files) = .ok () ∧
      PreparedStore.validate (sidecarConfig context.writerId maxFiles maxBytes payloadLen)
        (context.prepare metadata batches files) = .ok () ∧
      (files.map FlushDataFile.path).Nodup ∧
      ∃ spec, metadata.currentPartitionSpec = .ok spec ∧ ∀ file ∈ files, ∃ dirs name,
        segments file.path.key.toList = segments metadata.tableLocation.key.toList ++
          "data".toList :: (dirs ++ [uuidChars context.writerId.uuid, name]) ∧
        dirs.length = spec.fields.length ∧
        ∀ dir ∈ dirs, dir ≠ [] ∧ dir ≠ ['.'] ∧ dir ≠ ['.', '.'] := by
  obtain ⟨schema, spec, hsch, hs, hfl, hnd, hsum⟩ :=
    writeFlushDataFiles_flushed hwrite
  have hfound : metadata.schemaById metadata.currentSchemaId = some schema := by
    rw [FlushMetadata.currentSchema] at hsch
    split at hsch
    · simp_all
    · cases hsch
  have hfou : metadata.partitionSpecById spec.specId = some spec := by
    rw [FlushMetadata.currentPartitionSpec] at hs
    split at hs
    · rename_i hfind
      cases hs
      have hid : spec.specId = metadata.currentPartitionSpecId := by
        simpa using List.find?_some hfind
      rwa [hid]
    · cases hs
  have hrow : MachineInt.wrappingSum (batches.map List.length) = batches.flatten.length := by
    rw [List.length_flatten] at hfit ⊢
    exact MachineInt.wrappingSum_of_le hfit
  have hpos : 0 < batches.flatten.length := List.length_pos_iff.mpr hrows
  have hfs : files ≠ [] := by
    rintro rfl
    rw [List.map_nil, List.sum_nil] at hsum
    omega
  refine ⟨?_, ?_, ?_, spec, hs, ?_⟩
  · rw [validatePreparedDataFiles, if_neg (by simp [FlushContext.prepare, PreparedFlush.new]),
      if_neg (by simpa [FlushContext.prepare, PreparedFlush.new] using hfs)]
    obtain ⟨units, hunits⟩ := @exists_mapM_eq_ok FlushDataFile Unit TeoDBError
      (checkDataFile libs.toHumanString metadata (context.prepare metadata batches files)) files
      fun file hf => by
        obtain ⟨dirs, ending, h⟩ := hfl file hf
        exact ⟨(), h.checkDataFile hkey hfound hfou rfl rfl⟩
    change Except.map _ (files.mapM _) = _
    rw [hunits]
    rfl
  · have her : ∀ head ∈ files.map FlushDataFile.head, PreparedStore.dataFileError
        (sidecarConfig context.writerId maxFiles maxBytes payloadLen)
        (context.prepare metadata batches files) head = none := by
      intro head hh
      obtain ⟨file, hf, rfl⟩ := List.mem_map.mp hh
      obtain ⟨dirs, ending, h⟩ := hfl file hf
      exact h.dataFileError hkey rfl rfl rfl
    have hun : ((files.map FlushDataFile.head).map PreparedStore.uniquePath).Nodup := by
      rw [List.map_map, List.Nodup, List.pairwise_map]
      rw [List.Nodup, List.pairwise_map] at hnd
      apply hnd.imp_of_mem
      intro a b ha hb hne heq
      obtain ⟨_, _, ha⟩ := hfl a ha
      obtain ⟨_, _, hb⟩ := hfl b hb
      exact hne (key_eq_of_uniquePath (ha.scheme.trans hb.scheme.symm)
        (ha.bucket.trans hb.bucket.symm) heq)
    have hrecs : ((files.map FlushDataFile.head).map DataFileHead.recordCount).sum =
        batches.flatten.length := by
      rw [List.map_map]
      exact hsum
    apply validate_eq_ok (invalid_prepare (by omega) hfs hmax)
    have hvd := validateFiles_eq_ok her hun (fun _ _ => List.not_mem_nil)
      (by rwa [hrecs, Nat.zero_add])
    rw [hrecs, Nat.zero_add, ← hrow] at hvd
    exact hvd
  · apply List.Nodup.of_map ObjectLocation.key
    rwa [List.map_map]
  · intro file hf
    obtain ⟨dirs, ending, h⟩ := hfl file hf
    refine ⟨dirs, _, by simpa using h.segments_key hkey, h.length, fun dir hdir => ?_⟩
    have hequ := (h.named dir hdir).2
    refine ⟨?_, ?_, ?_⟩ <;> rintro rfl <;> simp at hequ

namespace RegionFlush

def libs : FlushLibraries Int where
  transforms := plainTransforms
  keyTexts := plainTexts
  toHumanString := RegionPartition.toHumanString
  kernel := insertionKernel Int
  encoder := batchEncoder _
  cell _ := none
  rowGroupTargetBytes := 1024
  rowGroupTargetRows := 1024

def metadata : FlushMetadata where
  tableUuid := Uuid.ofNat 3
  nameSpace := "sales"
  tableName := "events"
  tableLocation := ⟨.s3, some "lake", "sales/events"⟩
  currentSnapshotId := none
  currentSchemaId := 0
  currentPartitionSpecId := 0
  currentSortOrderId := 0
  schemas := [RegionPartition.schema]
  partitionSpecs := [RegionPartition.spec]
  sortOrders := []
  not_nil := by decide

def context : FlushContext where
  writerId := ⟨Uuid.ofNat 1⟩
  writerEpoch := ⟨1⟩
  commitId := ⟨Uuid.ofNat 2⟩
  generations := ⟨1, 2⟩
  preparedAtMs := 0
  writer_not_nil := by decide
  commit_not_nil := by decide
  epoch_ne_zero := by decide
  generations_begun := by decide
  preparedAtMs_nonneg := le_rfl

/-- Two partitions, one with a value that would lead upwards. -/
def batches : List (List Row) := [[[.utf8 "../eu"], [.utf8 "us"]], [[.utf8 "us"]]]

lemma exists_files : ∃ fs, writeFlushDataFiles libs metadata context batches =
    some (.ok fs) ∧ fs.length = 2 := by
  have hlen : (writeFlushDataFiles libs metadata context batches).map
      (fun res => res.toOption.map List.length) = some (some 2) := by decide +kernel
  cases hw : writeFlushDataFiles libs metadata context batches with
  | none => simp [hw] at hlen
  | some res =>
    cases res with
    | error e => simp [hw, Except.toOption] at hlen
    | ok fs => exact ⟨fs, rfl, by simpa [hw, Except.toOption] using hlen⟩

end RegionFlush

open RegionFlush in
theorem flush_output_validates_regions :
    ∃ files, writeFlushDataFiles libs metadata context batches = some (.ok files) ∧
      files.length = 2 ∧
      validatePreparedDataFiles libs.toHumanString metadata
        (context.prepare metadata batches files) = .ok () := by
  obtain ⟨files, hw, hlen⟩ := exists_files
  have hkey : NormalisedKey metadata.tableLocation.key := by
    rw [NormalisedKey]
    decide +kernel
  exact ⟨files, hw, hlen, (flush_output_validates libs metadata context 2 0 (fun _ => 0)
    batches files hkey (by decide) (by decide) hw hlen.le).1⟩

end TeoDB.Ingest.Flush

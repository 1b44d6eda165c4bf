import TeoDB.Core.File
import TeoDB.Core.WriterRegistry
import TeoDB.Lib.Optimistic
import TeoDB.Storage.Wal.Prepared

/-!
# One guarded append attempt

An append is a transaction built once per call. Every attempt reloads the table
through the guard, which checks the writer's state against the loaded metadata,
and sends one update that requires the main reference to be the one loaded.

## Implementation notes

Data files, partition specifications and the parts of table metadata that no append changes are
type parameters. The functions that read them are in `CatalogEnv`.
-/

namespace TeoDB.Catalog

open TeoDB.Core Lib Storage.Wal

/-- A request to append files under an exact identity. -/
structure CommitAppend (F : Type) where
  table : TableIdent
  tableUuid : Uuid
  identity : AppendCommitIdentity
  baseSnapshotId : Option Int
  addedDataFiles : List F
  properties : Properties

/-- The request of a prepared flush, the same at every retry. -/
def buildCommitRequest {F : Type} (prepared : PreparedFlush F) : CommitAppend F where
  table := prepared.table
  tableUuid := prepared.tableUuid
  identity := prepared.identity
  baseSnapshotId := prepared.baseSnapshotId
  addedDataFiles := prepared.dataFiles
  properties := OrdMap.empty

/-- What the catalog says about one exact append. -/
inductive CommitStatus where
  | committed (metadata : TableMetadata)
  | notCommitted
  | unknown (message : String)

/-- Configuration of the adapter, and the conversions between its types and those
of the table-format library. -/
structure CatalogEnv (F L P : Type) where
  codec : TextCodec
  maxWriterCheckpointsPerTable : Nat
  partitionSpecId : F → Int
  partitionSpecById : L → Int → Option P
  teodbDataFileToIceberg : F → P → TeoDBResult Unit
  icebergToTeoMetadata : TableIdent → L → TeoDBResult Unit

inductive IcebergErrorKind where
  | preconditionFailed
  | unexpected
  | dataInvalid
  | namespaceAlreadyExists
  | tableAlreadyExists
  | namespaceNotFound
  | tableNotFound
  | featureUnsupported
  | catalogCommitConflicts
  | other
deriving DecidableEq

/-- `connectFailure` says that the chain of causes holds a failure to connect. -/
structure IcebergError where
  kind : IcebergErrorKind
  retryable : Bool
  connectFailure : Bool
  text : String
deriving DecidableEq

inductive CommitAttemptError where
  | conflict (error : IcebergError)
  | stateUnknown (error : IcebergError)
  | retryableBeforeCommit (error : IcebergError)
  | fatal (error : IcebergError)

def classify (error : IcebergError) : CommitAttemptError :=
  match error.kind with
  | .catalogCommitConflicts | .preconditionFailed => .conflict error
  | .unexpected =>
    if error.connectFailure then .retryableBeforeCommit error else .stateUnknown error
  | _ => if error.retryable then .retryableBeforeCommit error else .fatal error

def containsText (text part : String) : Bool :=
  text.toList.tails.any fun rest => part.toList.isPrefixOf rest

def mapUnexpected (text : String) : TeoDBError :=
  if containsText text "404" || containsText text "NoSuchTable" || containsText text "not found"
      || containsText text "does not exist" then .notFound text
  else if containsText text "409" || containsText text "already exists" then .alreadyExists text
  else if containsText text "Conflict" || containsText text "CommitFailed" then
    .conflict text "" "<concurrent change>"
  else if containsText text "401" then .unauthorized
  else if containsText text "403" then .forbidden "access denied"
  else .catalog text

def mapIcebergError (e : IcebergError) : TeoDBError :=
  match e.kind with
  | .dataInvalid => .invalidArgument "iceberg" e.text
  | .featureUnsupported => .catalog s!"unsupported: {e.text}"
  | .tableAlreadyExists | .namespaceAlreadyExists => .alreadyExists e.text
  | .tableNotFound | .namespaceNotFound => .notFound e.text
  | .preconditionFailed | .catalogCommitConflicts => .conflict e.text "" "<concurrent change>"
  | .unexpected => mapUnexpected e.text
  | .other => .catalog s!"iceberg error: {e.text}"

section

variable {F L P : Type} (env : CatalogEnv F L P)

inductive GuardRejection where
  | alreadyCommitted (metadata : TableMetadata)
  | staleWriterEpoch (current : WriterEpoch)
  | writerRegistryFull
  | tableIncarnationMismatch (actual : Uuid)
  | metadataCorruption (message : String)
  | protocolViolation (message : String)

def GuardRejection.intoTeodbError (r : GuardRejection) (request : CommitAppend F)
    (limit : Nat) : TeoDBError :=
  match r with
  | alreadyCommitted _ =>
    .writeProtocol request.table "already committed guard outcome consumed as an error"
  | staleWriterEpoch current =>
    .staleWriterEpoch request.table request.identity.writerId request.identity.writerEpoch current
  | writerRegistryFull => .writerRegistryFull request.table limit
  | tableIncarnationMismatch actual =>
    .tableIncarnationMismatch request.table request.tableUuid actual
  | metadataCorruption message => .metadataCorruption request.table message
  | protocolViolation message => .writeProtocol request.table message

/-- Whether some snapshot of the history is the requested commit. -/
def exactSnapshot (request : CommitAppend F) : List Snapshot → TeoDBResult Bool
  | [] => .ok false
  | snapshot :: rest =>
    match snapshotMatchesAppendIdentity env.codec request.table request.tableUuid
        request.identity snapshot.snapshotId snapshot.summary with
    | .error error => .error error
    | .ok found => (exactSnapshot request rest).map (found || ·)

/-- Whether the writer's own checkpoint is the requested commit. -/
def exactCheckpoint (request : CommitAppend F) : Option WriterCheckpoint → Except String Bool
  | none => .ok false
  | some checkpoint =>
    if checkpoint.commitId = request.identity.commitId then
      if checkpoint.epoch ≠ request.identity.writerEpoch ∨
          checkpoint.generation ≠ request.identity.generations.hi then
        .error (s!"writer checkpoint reuses commit ID " ++
          s!"{env.codec.uuidToString request.identity.commitId.uuid} " ++
          "with a mismatched epoch or generation")
      else .ok true
    else .ok false

/-- The fence: a new commit continues strictly above the writer's checkpoint. -/
def continuesAbove (request : CommitAppend F) : Option WriterCheckpoint → Except GuardRejection Unit
  | none => .ok ()
  | some checkpoint =>
    if request.identity.writerEpoch < checkpoint.epoch then
      .error (.staleWriterEpoch checkpoint.epoch)
    else if request.identity.generations.lo ≤ checkpoint.generation then
      .error (.protocolViolation
        (s!"generation range {request.identity.generations.lo}-" ++
          s!"{request.identity.generations.hi} overlaps committed generation " ++
          s!"{checkpoint.generation} with a different commit ID"))
    else .ok ()

def validate (request : CommitAppend F) (metadata : TableMetadata) : Except GuardRejection Unit :=
  let text := TeoDBError.display env.codec.uuidToString
  match request.identity.validate request.table request.tableUuid with
  | .error error => .error (.protocolViolation (text error))
  | .ok _ =>
    if metadata.tableUuid ≠ request.tableUuid then
      .error (.tableIncarnationMismatch metadata.tableUuid)
    else match validateWriterCheckpoints env.codec request.table metadata.properties with
    | .error error => .error (.metadataCorruption (text error))
    | .ok checkpointCount =>
      match parseWriterCheckpoint env.codec request.table metadata.properties
          request.identity.writerId with
      | .error error => .error (.metadataCorruption (text error))
      | .ok ownCheckpoint =>
        match exactSnapshot env request metadata.snapshots with
        | .error error => .error (.metadataCorruption (text error))
        | .ok exactSnapshot =>
          match exactCheckpoint env request ownCheckpoint with
          | .error message => .error (.metadataCorruption message)
          | .ok exactCheckpoint =>
            if exactSnapshot || exactCheckpoint then .error (.alreadyCommitted metadata)
            else if (metadata.properties.find?
                (writerCheckpointKey env.codec request.identity.writerId)).isNone &&
                checkpointCount ≥ env.maxWriterCheckpointsPerTable then
              .error .writerRegistryFull
            else continuesAbove request ownCheckpoint

def engineName : String := "engine-name"

def engineVersion : String := "engine-version"

def reservedKeys : List String :=
  [commitIdProperty, writerIdProperty, writerEpochProperty, generationMinProperty,
    generationMaxProperty, tableUuidProperty, protocolVersionProperty, engineName, engineVersion]

def reserved (key : String) : Bool :=
  reservedKeys.contains key || "teodb.".toList.isPrefixOf key.toList

def engineProperties : List (String × String) :=
  [(engineName, "teodb"), (engineVersion, "0.1.0")]

def snapshotProperties (request : CommitAppend F) : TeoDBResult Properties :=
  match request.properties.keys.find? reserved with
  | some key =>
    .error (.invalidArgument "properties"
      s!"reserved snapshot property '{key}' cannot be overridden")
  | none =>
    .ok (request.properties.insertAll
      (appendSnapshotIdentityProperties env.codec request.tableUuid request.identity ++
        engineProperties))

/-- The checkpoint that the append writes with its snapshot. -/
def checkpointProperty (request : CommitAppend F) (nowMs : Int) : TeoDBResult (String × String) :=
  if nowMs < 0 then
    .error (.internal
      "system clock before UNIX epoch: second time provided was later than self")
  else if nowMs > i64Max then
    .error (.internal "commit timestamp exceeds i64")
  else
    match (WriterCheckpoint.new request.identity.writerEpoch request.identity.generations.hi
        request.identity.commitId nowMs).encode env.codec with
    | .error error => .error error
    | .ok value => .ok (writerCheckpointKey env.codec request.identity.writerId, value)

def convertDataFiles (table : TableIdent) (layout : L) : List F → TeoDBResult Unit
  | [] => .ok ()
  | file :: rest =>
    match env.partitionSpecById layout (env.partitionSpecId file) with
    | none =>
      .error (.metadataCorruption table
        s!"partition spec {env.partitionSpecId file} is missing")
    | some spec =>
      match env.teodbDataFileToIceberg file spec with
      | .error error => .error error
      | .ok _ => convertDataFiles table layout rest

/-- The actions of an append: the properties of its snapshot and its checkpoint. -/
structure AppendTransaction where
  properties : Properties
  checkpoint : String × String

def buildAppendTransaction (request : CommitAppend F) (layout : L) (nowMs : Int) :
    TeoDBResult AppendTransaction :=
  match snapshotProperties env request with
  | .error error => .error error
  | .ok properties =>
    match checkpointProperty env request nowMs with
    | .error error => .error error
    | .ok checkpoint =>
      match convertDataFiles env request.table layout request.addedDataFiles with
      | .error error => .error error
      | .ok _ => .ok ⟨properties, checkpoint⟩

/-- One update of a table with its requirements. -/
structure AppendUpdate where
  requireUuid : Uuid
  requireMain : Option Int
  snapshot : Snapshot
  checkpoint : String × String

/-- The update that an attempt sends for the metadata it loaded. -/
def AppendTransaction.update (tx : AppendTransaction) (base : TableMetadata) (snapshotId : Int) :
    AppendUpdate where
  requireUuid := base.tableUuid
  requireMain := base.currentSnapshotId
  snapshot := ⟨snapshotId, base.currentSnapshotId, tx.properties⟩
  checkpoint := tx.checkpoint

/-- The metadata after an update whose requirements are met. -/
def AppendUpdate.applied (u : AppendUpdate) (m : TableMetadata) : TableMetadata where
  tableUuid := m.tableUuid
  currentSnapshotId := some u.snapshot.snapshotId
  currentSchemaId := m.currentSchemaId
  snapshots := m.snapshots ++ [u.snapshot]
  properties := m.properties.insert u.checkpoint.1 u.checkpoint.2

/-- The catalog applies an update atomically, and only if its requirements hold. -/
def AppendUpdate.apply (u : AppendUpdate) (m : TableMetadata) : Option TableMetadata :=
  if m.tableUuid = u.requireUuid ∧ m.currentSnapshotId = u.requireMain then some (u.applied m)
  else none

/-- What the call answers when its transaction fails. -/
def guardResult (rejection : Option GuardRejection) (request : CommitAppend F)
    (error : IcebergError) : TeoDBResult TableMetadata :=
  match rejection with
  | some (.alreadyCommitted metadata) => .ok metadata
  | some other => .error (other.intoTeodbError request env.maxWriterCheckpointsPerTable)
  | none =>
    match classify error with
    | .conflict error => .error (mapIcebergError error)
    | .stateUnknown error =>
      .error (.commitStateUnknown request.table request.identity.commitId error.text)
    | .retryableBeforeCommit error => .error (.externalRetryable error.text)
    | .fatal error => .error (mapIcebergError error)

/-- The error by which the guard stops the transaction. -/
def rejectionError : IcebergError :=
  ⟨.preconditionFailed, false, false, "append rejected by typed TeoDB attempt guard"⟩

variable {env} {request : CommitAppend F} {metadata : TableMetadata}

/-- The facts behind an admitted attempt. -/
structure Admitted (env : CatalogEnv F L P) (request : CommitAppend F)
    (metadata : TableMetadata) : Prop where
  identity_valid : request.identity.validate request.table request.tableUuid = .ok ()
  tableUuid_eq : metadata.tableUuid = request.tableUuid
  registry_valid : ∀ e ∈ metadata.properties.entries, ValidEntry env.codec request.table e
  above : ∃ own, parseWriterCheckpoint env.codec request.table metadata.properties
      request.identity.writerId = .ok own ∧
    ∀ c, own = some c → c.generation < request.identity.generations.lo

lemma continuesAbove_ok {own : Option WriterCheckpoint}
    (h : continuesAbove request own = .ok ()) :
    ∀ c, own = some c → c.generation < request.identity.generations.lo := by
  rintro c rfl
  simp only [continuesAbove] at h
  split_ifs at h with hepoch hove
  exact not_le.mp hove

lemma admitted_of_validate (h : validate env request metadata = .ok ()) :
    Admitted env request metadata := by
  unfold validate at h
  split at h
  · cases h
  · rename_i hidn
    split at h
    · cases h
    · rename_i hu
      split at h
      · cases h
      · rename_i n hct
        split at h
        · cases h
        · rename_i own hown
          split at h
          · cases h
          · split at h
            · cases h
            · split_ifs at h
              exact {
                  identity_valid := hidn
                  tableUuid_eq := not_not.mp hu
                  registry_valid := validateWriterCheckpoints_ok_iff.mp ⟨n, hct⟩
                  above := ⟨own, hown, continuesAbove_ok h⟩ }

/-- The guard finds a commit only in the incarnation that it was meant for. -/
theorem tableUuid_of_alreadyCommitted {fd : TableMetadata}
    (h : validate env request metadata = .error (.alreadyCommitted fd)) :
    fd.tableUuid = request.tableUuid := by
  unfold validate at h
  dsimp only at h
  split at h
  · cases h
  split_ifs at h with hu
  · cases h
  split at h
  · cases h
  split at h
  · cases h
  rename_i own hown
  split at h
  · cases h
  split at h
  · cases h
  split_ifs at h with hfound hfull
  · cases h
    exact not_not.mp hu
  · cases h
  · cases own with
    | none => cases h
    | some cp =>
      simp only [continuesAbove] at h
      split_ifs at h <;> cases h

/-- The history can be compared exactly if every snapshot can. -/
theorem exactSnapshot_ok_iff {sns : List Snapshot} :
    (∃ fd, exactSnapshot env request sns = .ok fd) ↔
      ∀ s ∈ sns, ∃ fd, snapshotMatchesAppendIdentity env.codec request.table
        request.tableUuid request.identity s.snapshotId s.summary = .ok fd := by
  induction sns with
  | nil => simp [exactSnapshot]
  | cons s rest ih =>
    rw [List.forall_mem_cons, ← ih]
    cases hh : snapshotMatchesAppendIdentity env.codec request.table request.tableUuid
        request.identity s.snapshotId s.summary with
    | error e => simp [exactSnapshot, hh]
    | ok here =>
      cases hr : exactSnapshot env request rest with
      | error e => simp [exactSnapshot, hh, hr, Except.map]
      | ok later => simp [exactSnapshot, hh, hr, Except.map]

lemma exactSnapshot_true_iff {sns : List Snapshot} {fd : Bool}
    (h : exactSnapshot env request sns = .ok fd) :
    fd = true ↔ ∃ s ∈ sns, snapshotMatchesAppendIdentity env.codec request.table
      request.tableUuid request.identity s.snapshotId s.summary = .ok true := by
  induction sns generalizing fd with
  | nil =>
    obtain rfl : false = fd := Except.ok.inj h
    simp
  | cons s rest ih =>
    unfold exactSnapshot at h
    split at h
    · cases h
    · rename_i here hh
      cases hr : exactSnapshot env request rest with
      | error e =>
        rw [hr] at h
        cases h
      | ok later =>
        rw [hr] at h
        obtain rfl : (here || later) = fd := Except.ok.inj h
        rw [Bool.or_eq_true, ih hr]
        simp [hh]

lemma exactSnapshot_eq_true {sns : List Snapshot}
    (hmt : ∀ s ∈ sns, ∃ fd, snapshotMatchesAppendIdentity env.codec request.table
      request.tableUuid request.identity s.snapshotId s.summary = .ok fd)
    (hex : ∃ s ∈ sns, snapshotMatchesAppendIdentity env.codec request.table
      request.tableUuid request.identity s.snapshotId s.summary = .ok true) :
    exactSnapshot env request sns = .ok true := by
  obtain ⟨fd, hfnd⟩ := exactSnapshot_ok_iff.mpr hmt
  rw [hfnd, (exactSnapshot_true_iff hfnd).mpr hex]

/-- A commit that the history holds is rejected as already committed. -/
theorem validate_eq_alreadyCommitted {own : Option WriterCheckpoint}
    (hidn : request.identity.validate request.table request.tableUuid = .ok ())
    (hu : metadata.tableUuid = request.tableUuid)
    (hvd : ∀ e ∈ metadata.properties.entries, ValidEntry env.codec request.table e)
    (hown : parseWriterCheckpoint env.codec request.table metadata.properties
      request.identity.writerId = .ok own)
    (hsn : exactSnapshot env request metadata.snapshots = .ok true)
    (hcp : ∃ exact, exactCheckpoint env request own = .ok exact) :
    validate env request metadata = .error (.alreadyCommitted metadata) := by
  obtain ⟨exact, hex⟩ := hcp
  obtain ⟨count, hct⟩ := validateWriterCheckpoints_ok_iff.mpr hvd
  simp [validate, hidn, hu, hct, hown, hsn, hex]

/-- What a transaction that could be built consists of. -/
theorem buildAppendTransaction_ok {layout : L} {nowMs : Int} {tx : AppendTransaction}
    (h : buildAppendTransaction env request layout nowMs = .ok tx) :
    snapshotProperties env request = .ok tx.properties ∧
      checkpointProperty env request nowMs = .ok tx.checkpoint ∧
      convertDataFiles env request.table layout request.addedDataFiles = .ok () := by
  unfold buildAppendTransaction at h
  split at h
  · cases h
  · rename_i props hpr
    split at h
    · cases h
    · rename_i cp hcp
      split at h
      · cases h
      · rename_i hcon
        cases h
        exact ⟨hpr, hcp, hcon⟩

/-- The checkpoint written with an append whose identity is valid decodes to the
end of its range. -/
theorem checkpointProperty_ok (hcodec : env.codec.Lawful) {nowMs : Int}
    {cp : String × String} (h : checkpointProperty env request nowMs = .ok cp)
    (hidn : request.identity.validate request.table request.tableUuid = .ok ()) (tbl : TableIdent) :
    cp.1 = writerCheckpointKey env.codec request.identity.writerId ∧
      WriterCheckpoint.decode env.codec tbl request.identity.writerId cp.2 =
        .ok (WriterCheckpoint.new request.identity.writerEpoch request.identity.generations.hi
          request.identity.commitId nowMs) := by
  unfold checkpointProperty at h
  split_ifs at h with hneg hlarge
  split at h
  · cases h
  · rename_i text ht
    cases h
    refine ⟨rfl, WriterCheckpoint.decode_encode hcodec ht ?_⟩
    have hvd := AppendCommitIdentity.valid_of_validate hidn
    have hhi : request.identity.generations.hi ≠ 0 := by
      have hlo := hvd.lo_pos
      have hle := hvd.lo_le_hi
      omega
    simp [WriterCheckpoint.malformed, WriterCheckpoint.new, hvd.epoch_ne_zero, hhi,
      hvd.commitId_ne_nil, hneg]

/-- The main reference is the version of a table, and its snapshots are the
versions issued. -/
def mainVersion : Versioning TableMetadata Int where
  version := TableMetadata.currentSnapshotId
  issued m := {k | ∃ s ∈ m.snapshots, s.snapshotId = k}

lemma AppendUpdate.follows {u : AppendUpdate}
    (hfr : u.snapshot.snapshotId ∉ mainVersion.issued metadata) :
    mainVersion.Follows metadata (u.applied metadata) := by
  constructor
  · rintro k ⟨s, hs, rfl⟩
    exact ⟨s, List.mem_append_left _ hs, rfl⟩
  · refine ⟨u.snapshot.snapshotId, ⟨u.snapshot, ?_, rfl⟩, hfr, rfl⟩
    simp [AppendUpdate.applied]

end

end TeoDB.Catalog

import TeoDB.Ingest.Flush
import TeoDB.Ingest.Idempotency
import TeoDB.Storage.Wal.Replay

/-!
# Recovery

Recovery reads the replay plan of the log and the durable intents, asks the catalog
for every table they name, and puts each record that is above its checkpoint back
into a buffer. An intent takes its range back when the last record of the range has
been replayed, and is then resolved by an exact status check. Tables that the catalog
does not know are given a tombstone at the end.

## Implementation notes

The hash maps of the source are lists here, and `HashOrder` is the order in which one is iterated.
-/

namespace TeoDB.Ingest

open TeoDB.Core Lib Lib.MachineInt Catalog Storage.Wal
  Ingest.Buffer Ingest.Service

/-- The order in which a hash map or set is iterated. -/
structure HashOrder (β : Type) where
  order : List β → List β
  perm : ∀ l, (order l).Perm l

namespace HashOrder

variable {β : Type} (hash : HashOrder β)

@[simp] lemma order_nil : hash.order [] = [] := List.perm_nil.mp (hash.perm [])

@[simp] lemma order_singleton (b : β) : hash.order [b] = [b] :=
  List.perm_singleton.mp (hash.perm [b])

end HashOrder

structure ReplayConfig (F : Type) extends FlushConfig F where
  recoveryFlusher : Bool
  maxBytes : Nat
  softWatermarkBytes : Nat
  committedGrace : Nat
  ttl : Nat
  keyOrder : HashOrder WalTableKey
  tableOrder : HashOrder TableIdent
  preparedOrder : HashOrder (PreparedFlush F)
  maxBytes_le : maxBytes ≤ u64Max

/-- What became of a record of the plan. -/
inductive RecordOutcome where
  | dropped
  | committed
  | deduplicated
  | replayed
deriving DecidableEq

structure RecoveryState (F α : Type) where
  buffers : TableIdent → Option (TableBuffer F α)
  index : TableIdent → TableIndex
  outcomes : List (WalRecord α × RecordOutcome)

/-- Metadata of a table with the own checkpoint in it. -/
structure Target where
  key : WalTableKey
  metadata : TableMetadata
  checkpoint : Option WriterCheckpoint

namespace Target

/-- The generation up to which the catalog has the writer's records. -/
def generation (target : Target) : Nat :=
  match target.checkpoint with
  | some checkpoint => checkpoint.generation
  | none => 0

def covers (target : Target) (generation : Nat) : Bool :=
  match target.checkpoint with
  | some checkpoint => generation ≤ checkpoint.generation
  | none => false

end Target

def findTarget (targets : List Target) (key : WalTableKey) : Option Target :=
  targets.find? fun target => target.key = key

def isNotFound : TeoDBError → Bool
  | .notFound _ => true
  | _ => false

def isBackpressure : TeoDBError → Bool
  | .backpressure _ => true
  | _ => false

/-- The catalog errors after which loading a table is tried again. -/
def isCatalog : TeoDBError → Bool
  | .catalog _ => true
  | _ => false

namespace Replay

variable {F α S : Type}

def insertKey (keys : List WalTableKey) (key : WalTableKey) : List WalTableKey :=
  if key ∈ keys then keys else keys ++ [key]

/-- Add the table of an intent to the keys, unless its name has another incarnation. -/
def addIntent (order : HashOrder WalTableKey) (keys : List WalTableKey)
    (intent : PreparedFlush F) : TeoDBResult (List WalTableKey) :=
  let key : WalTableKey := ⟨intent.tableUuid, intent.table⟩
  match (order.order keys).find? fun key => key.ident = intent.table with
  | some existing =>
    if existing.tableUuid ≠ intent.tableUuid then
      .error (.tableIncarnationMismatch intent.table intent.tableUuid existing.tableUuid)
    else .ok (insertKey keys key)
  | none => .ok (insertKey keys key)

def recoveryKeys (order : HashOrder WalTableKey) (records : List WalTableKey)
    (prepared : List (PreparedFlush F)) : TeoDBResult (List WalTableKey) :=
  prepared.foldlM (addIntent order) (records.foldl insertKey [])

lemma mem_insertKey {keys : List WalTableKey} {key o : WalTableKey} :
    o ∈ insertKey keys key ↔ o ∈ keys ∨ o = key := by
  unfold insertKey
  split_ifs with h
  · exact ⟨Or.inl, fun hor => hor.elim id fun heq => heq ▸ h⟩
  · simp

lemma mem_foldl_insertKey {rs keys : List WalTableKey} {key : WalTableKey} :
    key ∈ rs.foldl insertKey keys ↔ key ∈ keys ∨ key ∈ rs := by
  induction rs generalizing keys with
  | nil => simp
  | cons first rest ih => simp [ih, mem_insertKey, or_assoc]

lemma addIntent_ok {order : HashOrder WalTableKey} {keys keys' : List WalTableKey}
    {it : PreparedFlush F} (h : addIntent order keys it = .ok keys') :
    keys' = insertKey keys ⟨it.tableUuid, it.table⟩ := by
  unfold addIntent at h
  dsimp only at h
  split at h
  · split_ifs at h
    cases h
    rfl
  · cases h
    rfl

/-- The keys of recovery are those of the records and of the intents. -/
theorem mem_of_recoveryKeys {order : HashOrder WalTableKey} {rs keys : List WalTableKey}
    {prep : List (PreparedFlush F)} {key : WalTableKey}
    (h : recoveryKeys order rs prep = .ok keys) :
    key ∈ keys ↔ key ∈ rs ∨ ∃ it ∈ prep, key = ⟨it.tableUuid, it.table⟩ := by
  have hf : ∀ (prep : List (PreparedFlush F)) start,
      prep.foldlM (addIntent order) start = .ok keys →
      (key ∈ keys ↔ key ∈ start ∨ ∃ it ∈ prep, key = ⟨it.tableUuid, it.table⟩) := by
    intro prep
    induction prep with
    | nil =>
      intro start h
      cases h
      simp
    | cons it rest ih =>
      intro start h
      cases hadd : addIntent order start it with
      | error e =>
        rw [List.foldlM_cons, hadd] at h
        cases h
      | ok next =>
        rw [List.foldlM_cons, hadd] at h
        rw [ih next h, addIntent_ok hadd, mem_insertKey]
        simp [or_assoc]
  rw [hf prep _ h, mem_foldl_insertKey]
  simp

/-- The intents by table incarnation; a later one replaces an earlier one. -/
def preparedByUuid (prepared : List (PreparedFlush F)) : List (PreparedFlush F) :=
  prepared.foldl (fun intents intent =>
    intents.filter (fun other => other.tableUuid ≠ intent.tableUuid) ++ [intent]) []

def findPrepared (prepared : List (PreparedFlush F)) (tableUuid : Uuid) :
    Option (PreparedFlush F) :=
  prepared.find? fun intent => intent.tableUuid = tableUuid

section

variable [BEq F] (here : Ref S (RecoveryState F α)) (cfg : ReplayConfig F)

section

variable (buffer : BufferRef S F α)

def completePrepared (prepared : PreparedFlush F) (metadata : TableMetadata) :
    Prog F α S Unit := do
  buffer.markCommitted prepared.generations.hi metadata
  call (.markCommitted ⟨prepared.tableUuid, prepared.table⟩ prepared.generations.hi)
  Async.lift (← call (.removePrepared prepared.tableUuid))

/-- Keep a rejected intent as a blocked flush of its table. -/
def containPreparedError (prepared : PreparedFlush F) (error : TeoDBError) (attempts : Nat) :
    Prog F α S Unit :=
  buffer.markFlushBlockedWithClass prepared (error.display cfg.codec.uuidToString) error.code
    attempts

def resolvePrepared (prepared : PreparedFlush F) : Prog F α S Unit := do
  Async.lift (cfg.validatePreparedDataFiles (← buffer.metadata) prepared)
  buffer.restorePrepared prepared
  match ← call (.checkAppendStatus (buildCommitRequest prepared)) with
  | .ok (.committed metadata) => completePrepared buffer prepared metadata
  | .ok .notCommitted =>
    match ← call (.commitAppend (buildCommitRequest prepared)) with
    | .ok metadata => completePrepared buffer prepared metadata
    | .error error =>
      match ambiguity error with
      | some message => buffer.markFlushBlocked prepared message 1
      | none => containPreparedError cfg buffer prepared error 1
  | .ok (.unknown message) => buffer.markFlushBlocked prepared message 1
  | .error error => containPreparedError cfg buffer prepared error 1

end

/-- The registered buffer of a table. -/
def bufferAt (ident : TableIdent) (fallback : TableBuffer F α) : BufferRef S F α where
  ident := ident
  get s := ((here.get s).buffers ident).getD fallback
  set s t := here.set s
    { here.get s with buffers := Function.update (here.get s).buffers ident (some t) }
  get_set s t := by simp

def retryLoadTable (ident : TableIdent) : Nat → Prog F α S TableMetadata
  | 0 => do Async.lift (← call (.loadTable ident))
  | retries + 1 => do
    match ← call (.loadTable ident) with
    | .ok metadata => return metadata
    | .error error => if isCatalog error then retryLoadTable ident retries else .throw error

/-- Register the buffer of a table, unless one is registered. -/
def getOrInsert (state : RecoveryState F α) (ident : TableIdent) (buffer : TableBuffer F α) :
    TableBuffer F α × RecoveryState F α :=
  match state.buffers ident with
  | some existing => (existing, state)
  | none =>
    (buffer, { state with buffers := Function.update state.buffers ident (some buffer) })

/-- Seed the log with a checkpoint, and register a buffer that starts after it. -/
def seedBuffer (ident : TableIdent) (metadata : TableMetadata)
    (checkpoint : Option WriterCheckpoint) : Prog F α S (TableBuffer F α) := do
  let target : Target := ⟨⟨metadata.tableUuid, ident⟩, metadata, checkpoint⟩
  call (.seedCommitted target.key target.generation)
  here.perform (I := io F α) .registry fun state =>
    let (buffer, state) := getOrInsert state ident
      ((TableBuffer.new ident metadata target.generation cfg.maxBytes cfg.softWatermarkBytes
        cfg.maxBytes_le).withCommittedGrace cfg.committedGrace)
    (.ok buffer, state)

def getOrLoad (ident : TableIdent) : Prog F α S (TableBuffer F α) := do
  match ← here.read (I := io F α) .registry fun state => state.buffers ident with
  | some buffer => return buffer
  | none => do
    let metadata ← retryLoadTable ident 3
    let _ ← Async.lift (validateWriterCheckpoints cfg.codec ident metadata.properties)
    let identity ← call .writerIdentity
    match ← Async.lift
      (parseWriterCheckpoint cfg.codec ident metadata.properties identity.writerId) with
    | some checkpoint => do
      let _ ← Async.lift (← call (.observeEpochAndBump checkpoint.epoch))
      seedBuffer here cfg ident metadata (some checkpoint)
    | none => seedBuffer here cfg ident metadata none

def flushTable (ident : TableIdent) : Prog F α S FlushOutcome := do
  match ← here.read (I := io F α) .registry fun state => state.buffers ident with
  | none => do
    let _ ← Async.lift (← call (.loadTable ident))
    return .empty
  | some buffer => Flush.flushOnce (bufferAt here ident buffer) cfg.toFlushConfig

def observe (record : WalRecord α) (outcome : RecordOutcome) : Prog F α S Unit :=
  here.modify (I := io F α) .observe fun state =>
    { state with outcomes := state.outcomes ++ [(record, outcome)] }

def withIndex (state : RecoveryState F α) (table : TableIdent) (index : TableIndex) :
    RecoveryState F α :=
  { state with index := Function.update state.index table index }

/-- Claim the idempotency key of a record. A record without a key needs none. -/
def claimKey (header : WalHeader) : Prog F α S Bool :=
  match header.idempotencyKey with
  | none => return true
  | some key => do
    let held ← call (.completedKey header.table key)
    let now ← call .instantNow
    here.perform (I := io F α) .idempotency fun state =>
      let (claim, index) := (state.index header.table).claim cfg.ttl key held now
      (.ok (claim == .acquired), withIndex state header.table index)

def abortKey (header : WalHeader) : Prog F α S Unit :=
  match header.idempotencyKey with
  | none => pure ()
  | some key =>
    here.modify (I := io F α) .idempotency fun state =>
      withIndex state header.table ((state.index header.table).abort key)

def completeKey (writer : WriterId) (header : WalHeader) : Prog F α S Unit :=
  match header.idempotencyKey with
  | none => pure ()
  | some key =>
    here.modify (I := io F α) .idempotency fun state =>
      withIndex state header.table ((state.index header.table).complete key
        ⟨header.batchId, writer, header.generation, header.rowCount⟩)

/-- Whether a record lies inside the range of an unresolved intent, past its start. -/
def insidePrepared (prepared : List (PreparedFlush F)) (tableUuid : Uuid) (generation : Nat) :
    Bool :=
  match findPrepared prepared tableUuid with
  | some intent => generation > intent.generations.lo
  | none => false

def insertRecord (buffer : BufferRef S F α) (record : WalRecord α) : Prog F α S Unit :=
  buffer.insertWithGenerationAt record.header.batchId record.header.generation
    record.header.createdAtMs record.batch

/-- Insert a record, and make room once when the buffer is full. -/
def insertReplayed (buffer : BufferRef S F α) (prepared : List (PreparedFlush F))
    (tableUuid : Uuid) (record : WalRecord α) : Prog F α S Unit := do
  match ← (insertRecord buffer record).attempt with
  | .ok _ => pure ()
  | .error error =>
    if isBackpressure error && cfg.recoveryFlusher &&
        !insidePrepared prepared tableUuid record.header.generation then
      match ← flushTable here cfg record.header.table with
      | .empty => .throw error
      | .committed _ _ _ => insertRecord buffer record
    else .throw error

/-- Resolve the intent of a table once the last record of its range is replayed. -/
def resolveReached (buffer : BufferRef S F α) (prepared : List (PreparedFlush F))
    (tableUuid : Uuid) (generation : Nat) : Prog F α S (List (PreparedFlush F)) :=
  match findPrepared prepared tableUuid with
  | some intent =>
    if generation ≥ intent.generations.hi then do
      resolvePrepared cfg buffer intent
      return prepared.filter fun other => other.tableUuid ≠ tableUuid
    else return prepared
  | none => return prepared

/-- Replay one record, and return the intents that are still unresolved. -/
def replayRecord (writer : WriterId) (targets : List Target) (prepared : List (PreparedFlush F))
    (record : WalRecord α) : Prog F α S (List (PreparedFlush F)) := do
  let key ← Async.lift record.header.tableKey
  match findTarget targets key with
  | none => do
    observe here record .dropped
    return prepared
  | some target =>
    if target.covers record.header.generation then do
      observe here record .committed
      return prepared
    else do
      let buffer := bufferAt here record.header.table (← getOrLoad here cfg record.header.table)
      if ← claimKey here cfg record.header then
        match ← (insertReplayed here cfg buffer prepared key.tableUuid record).attempt with
        | .error error => do
          abortKey here record.header
          .throw error
        | .ok _ => do
          completeKey here writer record.header
          observe here record .replayed
          resolveReached cfg buffer prepared key.tableUuid record.header.generation
      else do
        observe here record .deduplicated
        return prepared

/-- Read the plan to its end. -/
def replayRecords (writer : WriterId) (targets : List Target) :
    Nat → List (PreparedFlush F) → Prog F α S (List (PreparedFlush F))
  | 0, prepared => do
    let _ ← Async.lift (← call .nextRecord)
    return prepared
  | left + 1, prepared => do
    match ← Async.lift (← call .nextRecord) with
    | none => return prepared
    | some record => do
      let prepared ← replayRecord here cfg writer targets prepared record
      replayRecords writer targets left prepared

def loadTargetMetadata (writer : WriterId) : List WalTableKey → Prog F α S (List Target)
  | [] => return []
  | key :: rest => do
    match ← call (.loadTable key.ident) with
    | .ok metadata =>
      if metadata.tableUuid ≠ key.tableUuid then
        .throw (.tableIncarnationMismatch key.ident key.tableUuid metadata.tableUuid)
      else do
        let _ ← Async.lift (validateWriterCheckpoints cfg.codec key.ident metadata.properties)
        let checkpoint ← Async.lift
          (parseWriterCheckpoint cfg.codec key.ident metadata.properties writer)
        let loaded ← loadTargetMetadata writer rest
        return ⟨key, metadata, checkpoint⟩ :: loaded
    | .error error =>
      if isNotFound error then loadTargetMetadata writer rest else .throw error

/-- The largest own epoch in the loaded tables. -/
def maxObservedEpoch (targets : List Target) : Option WriterEpoch :=
  ((targets.filterMap Target.checkpoint).map fun checkpoint =>
    checkpoint.epoch.value).max?.map WriterEpoch.mk

/-- Move the own epoch past the largest one that the catalog knows. -/
def observeEpochs (targets : List Target) : Prog F α S Unit :=
  match maxObservedEpoch targets with
  | some epoch => do
    let _ ← Async.lift (← call (.observeEpochAndBump epoch))
  | none => pure ()

def droppedTables (keys : List WalTableKey) (targets : List Target) : List TableIdent :=
  ((keys.filter fun key => (findTarget targets key).isNone).map WalTableKey.ident).dedup

/-- Resolve an intent whose records were not replayed. -/
def resolveRemaining (intent : PreparedFlush F) : Prog F α S Unit := do
  let buffer := bufferAt here intent.table (← getOrLoad here cfg intent.table)
  resolvePrepared cfg buffer intent

def replayWal : Prog F α S Unit := do
  let plan ← Async.lift (← call .prepareReplayAll)
  let prepared ← Async.lift (← call .listPrepared)
  let writer ← call .writerIdentity
  let keys ← Async.lift (recoveryKeys cfg.keyOrder plan.tableKeys prepared)
  let targets ← loadTargetMetadata cfg writer.writerId (cfg.keyOrder.order keys)
  observeEpochs targets
  Async.each (fun target : Target => call (.seedCommitted target.key target.generation)) targets
  let remaining ← replayRecords here cfg writer.writerId targets plan.recordCount
    (preparedByUuid prepared)
  Async.each (resolveRemaining here cfg) (cfg.preparedOrder.order remaining)
  Async.each (fun table => do Async.lift (← call (.appendDropTombstone table)))
    (cfg.tableOrder.order (droppedTables keys targets))
  let _ ← call .gc
  return

end

end Replay

end TeoDB.Ingest

import TeoDB.Lib.Async
import TeoDB.Catalog.AppendGuard
import TeoDB.Ingest.Buffer.Table
import TeoDB.Storage.Wal.Record

/-!
# What the ingest programs call and do

The flusher and recovery wait for the catalog, the object store and the
write-ahead log, and they read the clock. Everything they do to a table buffer is
one atomic action under the lock of the buffer.

## Implementation notes

The duration of a sleep and the readings of the clock are answers of calls. A `BufferRef` stands
for the shared pointer to a buffer.
-/

namespace TeoDB.Ingest

open TeoDB.Core Lib Catalog Storage.Wal Ingest.Buffer

/-- The identity that a writer publishes under. -/
structure ResolvedIdentity where
  writerId : WriterId
  writerEpoch : WriterEpoch
deriving DecidableEq

structure FlushWriteContext where
  writerId : WriterId
  commitId : CommitId
  generations : GenerationRange
deriving DecidableEq

/-- What recovery knows of a replay plan before it reads the records. -/
structure PlanHead where
  tableKeys : List WalTableKey
  recordCount : Nat
deriving DecidableEq

inductive Call (F α : Type) where
  | loadTable (table : TableIdent)
  | commitAppend (request : CommitAppend F)
  | checkAppendStatus (request : CommitAppend F)
  | writeFlushDataFiles (metadata : TableMetadata) (batches : List (RecordBatch α))
      (context : FlushWriteContext)
  | writerIdentity
  | observeEpochAndBump (observed : WriterEpoch)
  | persistPrepared (prepared : PreparedFlush F)
  | listPrepared
  | removePrepared (tableUuid : Uuid)
  | markCommitted (table : WalTableKey) (generation : Nat)
  | seedCommitted (table : WalTableKey) (generation : Nat)
  | appendDropTombstone (table : TableIdent)
  | gc
  | prepareReplayAll
  | nextRecord
  | completedKey (table : TableIdent) (key : String)
  | commitIdNow
  | timestampMillis
  | instantNow
  | sleep (duration : Nat)

/-- The answer of each call. A look-up of a completed idempotency key says whether the
cache still holds it. -/
@[reducible] def Answer {F α : Type} : Call F α → Type
  | .loadTable _ => TeoDBResult TableMetadata
  | .commitAppend _ => TeoDBResult TableMetadata
  | .checkAppendStatus _ => TeoDBResult CommitStatus
  | .writeFlushDataFiles _ _ _ => TeoDBResult (List F)
  | .writerIdentity => ResolvedIdentity
  | .observeEpochAndBump _ => TeoDBResult ResolvedIdentity
  | .persistPrepared _ => TeoDBResult Unit
  | .listPrepared => TeoDBResult (List (PreparedFlush F))
  | .removePrepared _ => TeoDBResult Unit
  | .markCommitted _ _ => Unit
  | .seedCommitted _ _ => Unit
  | .appendDropTombstone _ => TeoDBResult Unit
  | .gc => TeoDBResult Nat
  | .prepareReplayAll => TeoDBResult PlanHead
  | .nextRecord => TeoDBResult (Option (WalRecord α))
  | .completedKey _ _ => Bool
  | .commitIdNow => CommitId
  | .timestampMillis => Int
  | .instantNow => Nat
  | .sleep _ => Unit

/-- Calls that suspend the task. The others return at once. -/
def Call.awaits {F α : Type} : Call F α → Bool
  | .writerIdentity | .observeEpochAndBump _ | .completedKey _ _ | .commitIdNow
  | .timestampMillis | .instantNow => false
  | _ => true

/-- The message of an ambiguous publication. -/
def ambiguity : TeoDBError → Option String
  | .commitStateUnknown _ _ message => some message
  | _ => none

/-- A reply of the catalog, the stores, the log or the clock. -/
inductive Reply (F α : Type) where
  | metadata (result : TeoDBResult TableMetadata)
  | status (result : TeoDBResult CommitStatus)
  | files (result : TeoDBResult (List F))
  | identity (identity : ResolvedIdentity)
  | epoch (result : TeoDBResult ResolvedIdentity)
  | log (result : TeoDBResult Unit)
  | intents (result : TeoDBResult (List (PreparedFlush F)))
  | collected (result : TeoDBResult Nat)
  | plan (result : TeoDBResult PlanHead)
  | record (result : TeoDBResult (Option (WalRecord α)))
  | held (held : Bool)
  | commitId (commitId : CommitId)
  | millis (now : Int)
  | instant (now : Nat)
  | done

/-- The log does not fail with an ambiguous publication. -/
def fromLog {β : Type} (result : TeoDBResult β) : Option (TeoDBResult β) :=
  match result with
  | .ok b => some (.ok b)
  | .error error => if (ambiguity error).isNone then some (.error error) else none

/-- A reply as the answer of a call, if it is one. -/
def Reply.answer {F α : Type} : Reply F α → (c : Call F α) → Option (Answer c)
  | .metadata result, .loadTable _ => some result
  | .metadata result, .commitAppend _ => some result
  | .status result, .checkAppendStatus _ => some result
  | .files result, .writeFlushDataFiles _ _ _ => some result
  | .identity resolved, .writerIdentity => some resolved
  | .epoch result, .observeEpochAndBump _ => fromLog result
  | .log result, .persistPrepared _ => fromLog result
  | .intents result, .listPrepared => fromLog result
  | .log result, .removePrepared _ => fromLog result
  | .done, .markCommitted _ _ => some ()
  | .done, .seedCommitted _ _ => some ()
  | .log result, .appendDropTombstone _ => fromLog result
  | .collected result, .gc => fromLog result
  | .plan result, .prepareReplayAll => fromLog result
  | .record result, .nextRecord => fromLog result
  | .held b, .completedKey _ _ => some b
  | .commitId fresh, .commitIdNow => some fresh
  | .millis now, .timestampMillis => some now
  | .instant now, .instantNow => some now
  | .done, .sleep _ => some ()
  | _, _ => none

lemma fromLog_error {β : Type} {res : TeoDBResult β} {err : TeoDBError}
    (h : fromLog res = some (.error err)) : ambiguity err = none := by
  cases res with
  | ok b => cases h
  | error e =>
    rw [fromLog] at h
    split_ifs at h with he
    cases h
    exact Option.isNone_iff_eq_none.mp he

/-- The atomic actions on buffers and on the state of recovery. -/
inductive Action (F : Type) where
  | blockedFlush
  | preparedFlush
  | metadata
  | drainPendingToInFlight
  | rollbackUnpreparedFlush
  | setPrepared (prepared : PreparedFlush F)
  | restorePrepared (prepared : PreparedFlush F)
  | markFlushBlocked (prepared : PreparedFlush F)
  | markBlockedRecheck
  | markCommitted (genHi : Nat) (newMetadata : TableMetadata) (pushedAt now : Nat)
  | markFlushFailed (prepared : PreparedFlush F)
  | refreshMetadata
  | insertWithGenerationAt (generation : Nat)
  | registry
  | idempotency
  | observe

@[reducible] def io (F α : Type) : Interface where
  Action := Action F
  Call := Call F α
  Answer := Answer

/-- A program over a state. -/
abbrev Prog (F α S β : Type) := Async (io F α) S TeoDBError β

/-- Wait for the answer of a call. -/
def call {F α S : Type} (c : Call F α) : Prog F α S (Answer c) :=
  Async.request (I := io F α) c

/-- A shared pointer to a table buffer. -/
structure BufferRef (S F α : Type) extends Ref S (TableBuffer F α) where
  ident : TableIdent

namespace BufferRef

variable {S F α : Type} (buffer : BufferRef S F α)

def blockedFlush : Prog F α S (Option (BlockedFlush F)) :=
  buffer.read (I := io F α) .blockedFlush TableBuffer.blockedFlush

def preparedFlush : Prog F α S (Option (PreparedFlush F)) :=
  buffer.read (I := io F α) .preparedFlush TableBuffer.preparedFlush

def metadata : Prog F α S TableMetadata :=
  buffer.read (I := io F α) .metadata TableBuffer.metadata

def drainPendingToInFlight : Prog F α S (List (BufferEntry α)) :=
  buffer.perform (I := io F α) .drainPendingToInFlight fun t =>
    (.ok t.drainPendingToInFlight.1, t.drainPendingToInFlight.2)

def rollbackUnpreparedFlush : Prog F α S Unit :=
  buffer.update (I := io F α) .rollbackUnpreparedFlush TableBuffer.rollbackUnpreparedFlush

def refreshMetadata (newMetadata : TableMetadata) : Prog F α S Unit :=
  buffer.modify (I := io F α) .refreshMetadata fun t => t.refreshMetadata newMetadata

/-- Mark the in-flight entries as committed, at two readings of the clock. -/
def markCommitted (genHi : Nat) (newMetadata : TableMetadata) : Prog F α S Unit := do
  let pushedAt ← call .instantNow
  let now ← call .instantNow
  buffer.update (I := io F α) (.markCommitted genHi newMetadata pushedAt now) fun t =>
    t.markCommitted genHi newMetadata pushedAt now

def insertWithGenerationAt (batchId : Uuid) (generation : Nat) (createdAtMs : Int)
    (batch : RecordBatch α) : Prog F α S Unit :=
  buffer.update (I := io F α) (.insertWithGenerationAt generation) fun t =>
    (t.insertWithGenerationAt batchId generation createdAtMs batch).map Prod.snd

section

variable [BEq F]

def setPrepared (prepared : PreparedFlush F) : Prog F α S Unit :=
  buffer.update (I := io F α) (.setPrepared prepared) fun t => t.setPrepared prepared

def restorePrepared (prepared : PreparedFlush F) : Prog F α S Unit :=
  buffer.perform (I := io F α) (.restorePrepared prepared) fun t => t.restorePrepared prepared

def markFlushBlockedWithClass (prepared : PreparedFlush F) (lastError lastErrorClass : String)
    (statusCheckAttempts : Nat) : Prog F α S Unit := do
  let now ← call .timestampMillis
  buffer.update (I := io F α) (.markFlushBlocked prepared) fun t =>
    t.markFlushBlockedWithClass prepared lastError lastErrorClass statusCheckAttempts now

def markFlushBlocked (prepared : PreparedFlush F) (lastError : String)
    (statusCheckAttempts : Nat) : Prog F α S Unit :=
  buffer.markFlushBlockedWithClass prepared lastError "commit_status_unknown" statusCheckAttempts

def markBlockedRecheck (lastError : String) (attempts : Nat) : Prog F α S Unit := do
  let now ← call .timestampMillis
  buffer.modify (I := io F α) .markBlockedRecheck fun t =>
    t.markBlockedRecheck lastError attempts now

def markFlushFailed (prepared : PreparedFlush F) : Prog F α S Unit :=
  buffer.update (I := io F α) (.markFlushFailed prepared) fun t => t.markFlushFailed prepared

end

end BufferRef

end TeoDB.Ingest

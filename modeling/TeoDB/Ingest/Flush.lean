import TeoDB.Ingest.Calls

/-!
# Flushing a table buffer

A flush drains the buffer, writes the data files, installs an immutable intent,
persists it, and publishes it. A definite rejection retires the intent, an
ambiguous answer is resolved by exact status checks of the same intent, and what
stays ambiguous is blocked until it is rechecked.

## Implementation notes

Programs run under the flush lock of their table. The semaphore of the rechecks is left out and
`validatePreparedDataFiles` is a parameter.
-/

namespace TeoDB.Ingest

open TeoDB.Core Lib Lib.MachineInt Catalog Storage.Wal
  Ingest.Buffer

inductive FlushOutcome where
  | empty
  | committed (genLo genHi recordCount : Nat)
deriving DecidableEq

/-- The largest value of the 32-bit counters. -/
def u32Max : Nat := 2 ^ 32 - 1

/-- Settings of the flusher, and the functions of other components it uses. -/
structure FlushConfig (F : Type) where
  numRetries : Nat
  totalTimeout : Nat
  minWait : Nat
  maxWait : Nat
  codec : TextCodec
  validatePreparedDataFiles : TableMetadata → PreparedFlush F → TeoDBResult Unit
  numRetries_lt : numRetries < u32Max

/-- What a rejected publication does to its intent. -/
inductive CommitReaction where
  | keep
  | fence (currentEpoch : WriterEpoch)
  | block
  | retire
deriving DecidableEq

def commitReaction : TeoDBError → CommitReaction
  | .commitStateUnknown _ _ _ => .keep
  | .externalRetryable _ => .keep
  | .staleWriterEpoch _ _ _ currentEpoch => .fence currentEpoch
  | .writerRegistryFull _ _ => .block
  | .metadataCorruption _ _ => .block
  | .tableIncarnationMismatch _ _ _ => .block
  | .writeProtocol _ _ => .block
  | _ => .retire

/-- Only an ambiguous error keeps its intent for resolution. -/
theorem ambiguity_of_reaction {e : TeoDBError} (h : commitReaction e ≠ .keep) :
    ambiguity e = none := by
  cases e <;> first | rfl | exact absurd rfl h

def isConflict : TeoDBError → Bool
  | .conflict _ _ _ => true
  | _ => false

namespace Flush

variable {F α S : Type}

section

variable (buffer : BufferRef S F α)

/-- Record an exact publication. What fails after the buffer has been told is not
reported. -/
def completeFlush (prepared : PreparedFlush F) (updated : TableMetadata) :
    Prog F α S FlushOutcome := do
  buffer.markCommitted prepared.generations.hi updated
  call (.markCommitted ⟨prepared.tableUuid, buffer.ident⟩ prepared.generations.hi)
  let _ ← call (.removePrepared prepared.tableUuid)
  let _ ← call .gc
  return .committed prepared.generations.lo prepared.generations.hi prepared.recordCount

def refreshAfterConflict : Prog F α S Unit := do
  match ← call (.loadTable buffer.ident) with
  | .ok fresh => buffer.refreshMetadata fresh
  | .error _ => pure ()

variable [BEq F] (cfg : FlushConfig F) (prepared : PreparedFlush F)

/-- Retire an intent that was definitely rejected, and give its rows back. -/
def retireIntent : Prog F α S Unit := do
  Async.lift (← call (.removePrepared prepared.tableUuid))
  buffer.markFlushFailed prepared

/-- React to an error of a publication. -/
def rejectFlush (error : TeoDBError) : Prog F α S FlushOutcome :=
  match commitReaction error with
  | .keep => .throw error
  | .fence currentEpoch => do
    let _ ← Async.lift (← call (.observeEpochAndBump currentEpoch))
    retireIntent buffer prepared
    .throw error
  | .block => do
    buffer.markFlushBlockedWithClass prepared (error.display cfg.codec.uuidToString) error.code 1
    .throw error
  | .retire => do
    retireIntent buffer prepared
    (if isConflict error then refreshAfterConflict buffer else pure ())
    .throw error

/-- Publish an intent once. -/
def commitFlush : Prog F α S FlushOutcome := do
  match ← call (.commitAppend (buildCommitRequest prepared)) with
  | .ok updated => completeFlush buffer prepared updated
  | .error error => rejectFlush buffer cfg prepared error

/-- Block the table after the last inconclusive check. -/
def giveUp (lastError : String) (attempts : Nat) :
    Prog F α S FlushOutcome := do
  buffer.markFlushBlocked prepared lastError attempts
  .throw (.flushBlocked buffer.ident prepared.commitId)

/-- Publish again, and go on when the answer is ambiguous again. -/
def commitAgain (ambiguous : String → Prog F α S FlushOutcome) :
    Prog F α S FlushOutcome := do
  match ← (commitFlush buffer cfg prepared).attempt with
  | .ok outcome => return outcome
  | .error error =>
    match ambiguity error with
    | some message => ambiguous message
    | none => .throw error

/-- One round of the status loop, with the number of consecutive answers that the commit is not
visible. -/
def statusRound (attempts notCommitted : Nat)
    (again : Nat → String → Prog F α S FlushOutcome) : Prog F α S FlushOutcome := do
  match ← call (.checkAppendStatus (buildCommitRequest prepared)) with
  | .ok (.committed metadata) => completeFlush buffer prepared metadata
  | .ok .notCommitted =>
    if notCommitted + 1 ≥ 2 then
      commitAgain buffer cfg prepared fun message => again 0 message
    else again (notCommitted + 1) "exact commit not visible in authoritative metadata"
  | .ok (.unknown message) => again 0 message
  | .error error =>
    if error.isRetryable then again 0 (error.display cfg.codec.uuidToString)
    else do
      buffer.markFlushBlockedWithClass prepared (error.display cfg.codec.uuidToString) error.code
        attempts
      .throw error

def statusLoop (prepared : PreparedFlush F) (deadline : Nat) :
    (left attempts wait notCommitted : Nat) → Prog F α S FlushOutcome
  | 0, attempts, _, notCommitted =>
    statusRound buffer cfg prepared (attempts + 1) notCommitted fun _ lastError =>
      giveUp buffer prepared lastError (attempts + 1)
  | left + 1, attempts, wait, notCommitted =>
    statusRound buffer cfg prepared (attempts + 1) notCommitted fun notCommitted lastError => do
      if (← call .instantNow) ≥ deadline then
        giveUp buffer prepared lastError (attempts + 1)
      else do
        let remaining := deadline - (← call .instantNow)
        call (.sleep (min wait remaining))
        statusLoop prepared deadline left (attempts + 1) (min (wait * 2) cfg.maxWait)
          notCommitted

/-- Check the exact status of an ambiguous intent until it is resolved. -/
def resolveUnknown : Prog F α S FlushOutcome := do
  let started ← call .instantNow
  statusLoop buffer cfg prepared (started + cfg.totalTimeout) cfg.numRetries 0 cfg.minWait 0

/-- Persist an intent, publish it and resolve the answer. -/
def commitPrepared : Prog F α S FlushOutcome := do
  Async.lift (← call (.persistPrepared prepared))
  commitAgain buffer cfg prepared fun _ => resolveUnknown buffer cfg prepared

/-- Continue with a value, or return the in-flight entries to pending and fail. -/
def orRollback {β : Type} (result : TeoDBResult β) : Prog F α S β :=
  match result with
  | .ok value => return value
  | .error error => do
    buffer.rollbackUnpreparedFlush
    .throw error

/-- Install an intent as the owner of the entries in flight. -/
def installPrepared : Prog F α S Unit := do
  orRollback buffer (← (buffer.setPrepared prepared).attempt)

/-- Build a new intent for the entries in flight. -/
def prepareFlush (inFlight : List (BufferEntry α)) : Prog F α S (PreparedFlush F) := do
  let genLo := (generations inFlight).min?.getD 0
  let genHi := (generations inFlight).max?.getD 0
  let recordCount := wrappingSum (inFlight.map fun entry => entry.batch.numRows)
  let metadata ← buffer.metadata
  let identity ← call .writerIdentity
  let commitId ← call .commitIdNow
  let generations ← orRollback buffer (GenerationRange.new genLo genHi)
  let dataFiles ← orRollback buffer (← call (.writeFlushDataFiles metadata
    (inFlight.map BufferEntry.batch) ⟨identity.writerId, commitId, generations⟩))
  let preparedAtMs ← call .timestampMillis
  let prepared := PreparedFlush.new buffer.ident metadata.tableUuid identity.writerId
    identity.writerEpoch commitId generations recordCount preparedAtMs dataFiles
    metadata.currentSnapshotId
  orRollback buffer (cfg.validatePreparedDataFiles metadata prepared)
  installPrepared buffer prepared
  return prepared

def flushOnce : Prog F α S FlushOutcome := do
  match ← buffer.blockedFlush with
  | some blocked => .throw (.flushBlocked buffer.ident blocked.prepared.commitId)
  | none =>
    match ← buffer.preparedFlush with
    | some prepared => commitPrepared buffer cfg prepared
    | none =>
      let inFlight ← buffer.drainPendingToInFlight
      if inFlight.isEmpty then return .empty
      else
        let prepared ← prepareFlush buffer cfg inFlight
        commitPrepared buffer cfg prepared

/-- Check a blocked intent again on behalf of an operator. -/
def recheckBlocked : Prog F α S FlushOutcome := do
  match ← buffer.blockedFlush with
  | none => return .empty
  | some blocked =>
    let stillUnknown (message : String) : Prog F α S FlushOutcome := do
      buffer.markBlockedRecheck message (min (blocked.statusCheckAttempts + 1) u32Max)
      .throw (.flushBlocked buffer.ident blocked.prepared.commitId)
    match ← call (.checkAppendStatus (buildCommitRequest blocked.prepared)) with
    | .error error => .throw error
    | .ok (.committed metadata) => completeFlush buffer blocked.prepared metadata
    | .ok .notCommitted => commitAgain buffer cfg blocked.prepared stillUnknown
    | .ok (.unknown message) => stillUnknown message

end

end Flush

end TeoDB.Ingest

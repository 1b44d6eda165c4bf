import TeoDB.Ingest.Buffer.Table
import TeoDB.Storage.Wal.Record

/-!
# The ingest request between its suspension points

A request runs without interruption between two awaited answers. `IngestAwait`
lists the places where it waits, `resume` runs it from one answer to the next
place or to its end. A batch of a Flight stream starts where the row request
has found its buffer.

## Implementation notes

The conversion of rows to a batch and the answer of the idempotency index come as `Preparation`,
made by the caller.
-/

namespace TeoDB.Ingest.Service

open TeoDB.Core Storage.Wal Ingest.Buffer

variable {F α : Type}

/-- The two ways a batch comes in. -/
inductive Transport where
  | rest
  | flight
deriving DecidableEq

/-- What a request tells its client about an accepted batch. -/
structure IngestReceipt where
  batchId : Uuid
  writerId : WriterId
  generation : Nat
  acceptedRows : Nat
deriving DecidableEq

inductive IngestOutcome where
  | accepted (receipt : IngestReceipt)
  | deduplicated (receipt : IngestReceipt)
deriving DecidableEq

/-- A converted batch with the identifier and time it is ingested under. -/
structure IngestBatch (α : Type) where
  batchId : Uuid
  createdAtMs : Int
  batch : RecordBatch α
  idempotencyKey : Option String

/-- The work between finding the buffer and reserving in it. -/
inductive Preparation (α : Type) where
  | rejected (error : TeoDBError)
  | deduplicated (receipt : IngestReceipt)
  | ready (batch : IngestBatch α)

/-- A reservation together with the record whose append it waits for. -/
structure PendingAppend (α : Type) where
  reservation : Reservation
  record : WalRecord α

variable (t : TableBuffer F α)

/-- The record that is appended for a batch under a reservation. -/
def walRecord (table : TableIdent) (b : IngestBatch α)
    (reservation : Reservation) : WalRecord α where
  header :=
    { protocolVersion := writeProtocolVersion
      tableUuid := some t.metadata.tableUuid
      batchId := b.batchId
      table := table
      schemaId := t.metadata.currentSchemaId
      generation := reservation.generation
      createdAtMs := b.createdAtMs
      idempotencyKey := b.idempotencyKey
      rowCount := b.batch.numRows
      byteCount := b.batch.arrayMemorySize
      op := .append }
  batch := b.batch

/-- Reserve in the buffer before the log append. -/
def beginAppend (table : TableIdent) (b : IngestBatch α) :
    TeoDBResult (PendingAppend α × TableBuffer F α) :=
  match t.reserve b.batch with
  | .error error => .error error
  | .ok (reservation, t') => .ok (⟨reservation, walRecord t table b reservation⟩, t')

/-- The error of a request whose log append failed. -/
def appendFailure (errorText : TeoDBError → String) (error : TeoDBError) :
    Transport → TeoDBError
  | .rest => walError s!"WAL append failed: {errorText error}"
  | .flight => error

/-- Resolve the reservation by the answer of the log. -/
def finishAppend (writerId : WriterId) (errorText : TeoDBError → String) (transport : Transport)
    (p : PendingAppend α) :
    TeoDBResult Unit → TeoDBResult IngestReceipt × TableBuffer F α
  | .error error =>
    (.error (appendFailure errorText error transport), t.releaseReservation p.reservation)
  | .ok _ =>
    let (inserted, t') :=
      t.insertReservedAt p.record.header.batchId p.reservation p.record.header.createdAtMs
        p.record.batch
    (.ok ⟨p.record.header.batchId, writerId, inserted.generation, p.record.header.rowCount⟩, t')

/-- The places where a request waits for an answer. -/
inductive IngestAwait (α : Type) where
  | getOrLoad
  | createNamespace
  | createTable
  | reload
  | walAppend (pending : PendingAppend α)

/-- The append that a request waits for. -/
def IngestAwait.pending? : IngestAwait α → Option (PendingAppend α)
  | .walAppend pending => some pending
  | _ => none

/-- The answers a request can be resumed with. -/
inductive IngestAnswer (α : Type) where
  | buffer (preparation : Preparation α)
  | done
  | failed (error : TeoDBError)

/-- Where a request is after running on. -/
inductive Progress (α : Type) where
  | waits (place : IngestAwait α)
  | ends (result : TeoDBResult IngestOutcome)

/-- The append that a request waits for after running on. -/
def Progress.pending? : Progress α → Option (PendingAppend α)
  | .waits place => place.pending?
  | .ends _ => none

/-- Run from the found buffer to the log append. -/
def enterAppend (table : TableIdent) :
    Preparation α → Progress α × TableBuffer F α
  | .rejected error => (.ends (.error error), t)
  | .deduplicated receipt => (.ends (.ok (.deduplicated receipt)), t)
  | .ready batch =>
    match beginAppend t table batch with
    | .error error => (.ends (.error error), t)
    | .ok (pending, t') => (.waits (.walAppend pending), t')

/-- Run a request from one answer to its next waiting place or its end. -/
def resume (table : TableIdent) (writerId : WriterId) (errorText : TeoDBError → String)
    (transport : Transport) :
    IngestAwait α → IngestAnswer α → Option (Progress α × TableBuffer F α)
  | .getOrLoad, .buffer preparation => some (enterAppend t table preparation)
  | .getOrLoad, .failed (.notFound _) => some (.waits .createNamespace, t)
  | .getOrLoad, .failed error => some (.ends (.error error), t)
  | .createNamespace, .done => some (.waits .createTable, t)
  | .createNamespace, .failed (.alreadyExists _) => some (.waits .createTable, t)
  | .createNamespace, .failed error => some (.ends (.error error), t)
  | .createTable, .done => some (.waits .reload, t)
  | .createTable, .failed (.alreadyExists _) => some (.waits .reload, t)
  | .createTable, .failed error => some (.ends (.error error), t)
  | .reload, .buffer preparation => some (enterAppend t table preparation)
  | .reload, .failed error => some (.ends (.error error), t)
  | .walAppend pending, .done =>
    let (result, t') := finishAppend t writerId errorText transport pending (.ok ())
    some (.ends (result.map .accepted), t')
  | .walAppend pending, .failed error =>
    let (result, t') := finishAppend t writerId errorText transport pending (.error error)
    some (.ends (result.map .accepted), t')
  | _, _ => none

lemma enterAppend_cases (tbl : TableIdent) (prep : Preparation α) :
    ((enterAppend t tbl prep).1.pending? = none ∧ (enterAppend t tbl prep).2 = t) ∨
    ∃ bt rsv t', prep = .ready bt ∧ t.reserve bt.batch = .ok (rsv, t') ∧ enterAppend t tbl prep =
        (.waits (.walAppend ⟨rsv, walRecord t tbl bt rsv⟩), t') := by
  cases prep with
  | rejected e => exact Or.inl ⟨rfl, rfl⟩
  | deduplicated receipt => exact Or.inl ⟨rfl, rfl⟩
  | ready bt =>
    cases hr : t.reserve bt.batch with
    | error e =>
      apply Or.inl
      simp [enterAppend, beginAppend, hr, Progress.pending?]
    | ok r => exact Or.inr ⟨bt, r.1, r.2, rfl, hr, by simp [enterAppend, beginAppend, hr]⟩

/-- A resumed request enters its log append, resolves it, or leaves the buffer
alone without holding anything. -/
theorem resume_cases {t t' : TableBuffer F α} {tbl : TableIdent} {writerId : WriterId}
    {errorText : TeoDBError → String} {tr : Transport} {place : IngestAwait α}
    {ans : IngestAnswer α} {progress : Progress α}
    (h : resume t tbl writerId errorText tr place ans = some (progress, t')) :
    (∃ prep, place.pending? = none ∧ enterAppend t tbl prep = (progress, t')) ∨
    (∃ pend res, place = .walAppend pend ∧ progress.pending? = none ∧
      (finishAppend t writerId errorText tr pend res).2 = t') ∨
    (place.pending? = none ∧ progress.pending? = none ∧ t = t') := by
  unfold resume at h
  split at h
  case h_1 prep => exact Or.inl ⟨prep, rfl, Option.some.inj h⟩
  case h_10 prep => exact Or.inl ⟨prep, rfl, Option.some.inj h⟩
  case h_12 pend =>
    obtain ⟨rfl, rfl⟩ := Prod.ext_iff.mp (Option.some.inj h)
    exact Or.inr (Or.inl ⟨pend, .ok (), rfl, rfl, rfl⟩)
  case h_13 pend e =>
    obtain ⟨rfl, rfl⟩ := Prod.ext_iff.mp (Option.some.inj h)
    exact Or.inr (Or.inl ⟨pend, .error e, rfl, rfl, rfl⟩)
  case h_14 => cases h
  all_goals
    obtain ⟨rfl, rfl⟩ := Prod.ext_iff.mp (Option.some.inj h)
    exact Or.inr (Or.inr ⟨rfl, rfl, rfl⟩)

end TeoDB.Ingest.Service

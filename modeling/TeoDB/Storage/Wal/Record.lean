import TeoDB.Core.File

/-!
# Records of the write-ahead log

An append record carries one ingested batch under its table incarnation and
generation. A drop tombstone names only the table.
-/

namespace TeoDB.Storage.Wal

open TeoDB.Core

/-- What a frame represents. -/
inductive WalOp where
  | append
  | dropTable
deriving DecidableEq

structure WalHeader where
  protocolVersion : Nat
  tableUuid : Option Uuid
  batchId : Uuid
  table : TableIdent
  schemaId : Int
  generation : Nat
  createdAtMs : Int
  idempotencyKey : Option String
  rowCount : Nat
  byteCount : Nat
  op : WalOp
deriving DecidableEq

def walError (message : String) : TeoDBError := .wal message none

namespace WalHeader

def validate (h : WalHeader) : TeoDBResult Unit :=
  if h.protocolVersion ≠ writeProtocolVersion then
    .error (walError (s!"WAL record must use protocol version {writeProtocolVersion}, " ++
      s!"found {h.protocolVersion}"))
  else
    match h.op, h.tableUuid with
    | .append, none => .error (walError "append WAL record is missing table_uuid")
    | .append, some tableUuid =>
      if tableUuid.isNil then .error (walError "append WAL record has a nil table_uuid")
      else .ok ()
    | .dropTable, some _ =>
      .error (walError "drop-table WAL record must not carry table_uuid")
    | .dropTable, none => .ok ()

def tableKey (h : WalHeader) : TeoDBResult WalTableKey :=
  match h.validate with
  | .error error => .error error
  | .ok _ =>
    match h.tableUuid with
    | none => .error (walError "append WAL record is missing table_uuid")
    | some tableUuid => .ok ⟨tableUuid, h.table⟩

lemma tableKey_of_append {h : WalHeader} (hv : h.validate = .ok ()) (hop : h.op = .append) :
    ∃ uuid, h.tableUuid = some uuid ∧ h.tableKey = .ok ⟨uuid, h.table⟩ := by
  cases hu : h.tableUuid with
  | none =>
    rw [validate, hop, hu] at hv
    split_ifs at hv
  | some uuid => exact ⟨uuid, rfl, by simp [tableKey, hv, hu]⟩

lemma ident_of_tableKey {h : WalHeader} {key : WalTableKey} (hk : h.tableKey = .ok key) :
    key.ident = h.table := by
  unfold tableKey at hk
  split at hk
  · cases hk
  · split at hk
    · cases hk
    · cases hk
      rfl

end WalHeader

/-- A single durable entry. -/
structure WalRecord (α : Type) where
  header : WalHeader
  batch : RecordBatch α
deriving DecidableEq

/-- The tombstone of a dropped table. It carries no incarnation. -/
def WalRecord.dropTombstone {α : Type} (table : TableIdent) (batchId : Uuid)
    (createdAtMs : Int) : WalRecord α :=
  ⟨⟨writeProtocolVersion, none, batchId, table, 0, 0, createdAtMs, none, 0, 0, .dropTable⟩,
    RecordBatch.newEmpty⟩

end TeoDB.Storage.Wal

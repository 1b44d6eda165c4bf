import TeoDB.Core.WriteProtocol

/-!
# Table metadata as the write path sees it

Schemas, partition specifications, sort orders, locations and live files play
no part in buffering and publication and are left out here.
-/

namespace TeoDB.Core

/-- A snapshot in table history with its summary properties. -/
structure Snapshot where
  snapshotId : Int
  parentSnapshotId : Option Int
  summary : Properties
deriving DecidableEq

structure TableMetadata where
  tableUuid : Uuid
  currentSnapshotId : Option Int
  currentSchemaId : Int
  snapshots : List Snapshot
  properties : Properties
deriving DecidableEq

/-- One column of a batch with the size of its buffers. -/
structure Column (α : Type) where
  data : α
  bufferMemorySize : Nat
deriving DecidableEq

/-- A batch of rows by columns. `arrayMemorySize` counts the arrays themselves
besides their buffers. -/
structure RecordBatch (α : Type) where
  columns : List (Column α)
  numRows : Nat
  arrayMemorySize : Nat
deriving DecidableEq

/-- The batch without columns and rows. -/
def RecordBatch.newEmpty {α : Type} : RecordBatch α := ⟨[], 0, 0⟩

end TeoDB.Core

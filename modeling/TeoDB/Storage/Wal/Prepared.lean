import TeoDB.Core.WriteProtocol

/-!
# Durable prepared-flush intents

An intent fixes everything a publication attempt repeats: the incarnation of
the table, the writer, the commit identifier, the generation range and the
files.

## Implementation notes

The type of data files is a parameter together with its boolean equality. Floating-point bounds
keep it from being reflexive, so no law is assumed of it.
-/

namespace TeoDB.Storage.Wal

open TeoDB.Core

structure PreparedFlush (F : Type) where
  version : Nat
  table : TableIdent
  tableUuid : Uuid
  writerId : WriterId
  writerEpoch : WriterEpoch
  commitId : CommitId
  generations : GenerationRange
  recordCount : Nat
  preparedAtMs : Int
  dataFiles : List F
  baseSnapshotId : Option Int
deriving BEq

namespace PreparedFlush

variable {F : Type}

def new (table : TableIdent) (tableUuid : Uuid) (writerId : WriterId)
    (writerEpoch : WriterEpoch) (commitId : CommitId) (generations : GenerationRange)
    (recordCount : Nat) (preparedAtMs : Int) (dataFiles : List F)
    (baseSnapshotId : Option Int) : PreparedFlush F :=
  ⟨writeProtocolVersion, table, tableUuid, writerId, writerEpoch, commitId, generations,
    recordCount, preparedAtMs, dataFiles, baseSnapshotId⟩

/-- The identity under which the intent is published. -/
def identity (p : PreparedFlush F) : AppendCommitIdentity :=
  ⟨p.writerId, p.writerEpoch, p.commitId, p.generations⟩

end PreparedFlush

end TeoDB.Storage.Wal

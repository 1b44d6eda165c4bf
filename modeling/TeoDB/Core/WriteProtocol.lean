import TeoDB.Core.Error
import TeoDB.Lib.MachineInt
import TeoDB.Lib.OrdMap

/-!
# Multi-writer append protocol identities and metadata codecs

Generation numbers are writer-local. A durable write position is identified by
table, writer and generation, a logical flush by an exact commit identifier.

## Implementation notes

`TextCodec` carries the textual form of identifiers and checkpoints, and `TextCodec.Lawful` the
round trips the protocol relies on. Properties are iterated in key order, which decides only which
of several malformed entries is reported.
-/

namespace TeoDB.Core

open Lib Lib.MachineInt

def writeProtocolVersion : Nat := 1

def writerCheckpointPrefix : String := "teodb.writer.v1."

def maxWriterCheckpointValueBytes : Nat := 4 * 1024

def commitIdProperty : String := "teodb.commit.id"

def writerIdProperty : String := "teodb.writer.id"

def writerEpochProperty : String := "teodb.writer.epoch"

def generationMinProperty : String := "teodb.generation.min"

def generationMaxProperty : String := "teodb.generation.max"

def tableUuidProperty : String := "teodb.table.uuid"

def protocolVersionProperty : String := "teodb.protocol.version"

/-- String-keyed properties of a table or of a snapshot summary. -/
abbrev Properties := OrdMap String String

/-- An inclusive range of generations. -/
structure GenerationRange where
  lo : Nat
  hi : Nat
deriving DecidableEq

namespace GenerationRange

def new (lo hi : Nat) : TeoDBResult GenerationRange :=
  if lo = 0 then
    .error (.invalidArgument "generation_lo" "generation ranges start at 1")
  else if lo > hi then
    .error (.invalidArgument "generation_range" s!"lower bound {lo} exceeds upper bound {hi}")
  else
    .ok ⟨lo, hi⟩

def contains (r : GenerationRange) (generation : Nat) : Bool :=
  generation ≥ r.lo && generation ≤ r.hi

@[simp] lemma contains_iff (r : GenerationRange) (g : Nat) :
    r.contains g = true ↔ r.lo ≤ g ∧ g ≤ r.hi := by
  simp [contains]

end GenerationRange

/-- Key of the local write-ahead log checkpoints. -/
structure WalTableKey where
  tableUuid : Uuid
  ident : TableIdent
deriving DecidableEq

structure AppendCommitIdentity where
  writerId : WriterId
  writerEpoch : WriterEpoch
  commitId : CommitId
  generations : GenerationRange
deriving DecidableEq

namespace AppendCommitIdentity

/-- The first component that is not usable, as the source words it. -/
def invalid (i : AppendCommitIdentity) (tableUuid : Uuid) : Option String :=
  if tableUuid.isNil then some "table UUID is nil"
  else if i.writerId.uuid.isNil then some "writer ID is nil"
  else if i.writerEpoch = WriterEpoch.zero then some "writer epoch is zero"
  else if i.commitId.uuid.isNil then some "commit ID is nil"
  else if i.generations.lo = 0 ∨ i.generations.lo > i.generations.hi then
    some "generation range is invalid"
  else none

def validate (i : AppendCommitIdentity) (table : TableIdent) (tableUuid : Uuid) :
    TeoDBResult Unit :=
  match i.invalid tableUuid with
  | some message => .error (.writeProtocol table message)
  | none => .ok ()

/-- What an identity satisfies once it has been validated. -/
structure Valid (i : AppendCommitIdentity) : Prop where
  writerId_ne_nil : i.writerId.uuid.isNil = false
  epoch_ne_zero : i.writerEpoch ≠ WriterEpoch.zero
  commitId_ne_nil : i.commitId.uuid.isNil = false
  lo_pos : 0 < i.generations.lo
  lo_le_hi : i.generations.lo ≤ i.generations.hi

lemma valid_of_validate {i : AppendCommitIdentity} {tb : TableIdent} {uuid : Uuid}
    (h : i.validate tb uuid = .ok ()) : i.Valid := by
  unfold validate invalid at h
  split_ifs at h with htable hwtr hepoch hcom hrg
  rw [not_or, not_lt] at hrg
  exact {
      writerId_ne_nil := eq_false_of_ne_true hwtr
      epoch_ne_zero := hepoch
      commitId_ne_nil := eq_false_of_ne_true hcom
      lo_pos := Nat.pos_of_ne_zero hrg.1
      lo_le_hi := hrg.2 }

end AppendCommitIdentity

/-- What a table records about the last append of one writer. -/
structure WriterCheckpoint where
  version : Nat
  epoch : WriterEpoch
  generation : Nat
  commitId : CommitId
  committedAtMs : Int
deriving DecidableEq

/-- Text formats of the libraries. Numbers of a parsed checkpoint fit in 64 bits. -/
structure TextCodec where
  uuidToString : Uuid → String
  uuidParseStr : String → Except String Uuid
  checkpointToJson : WriterCheckpoint → Except String String
  checkpointFromJson : String → Except String WriterCheckpoint
  fromJson_le : ∀ text checkpoint, checkpointFromJson text = .ok checkpoint →
    checkpoint.epoch.value ≤ u64Max ∧ checkpoint.generation ≤ u64Max

section

variable (codec : TextCodec)

/-- The snapshot-summary representation of an exact append identity. -/
def appendSnapshotIdentityProperties (tableUuid : Uuid) (identity : AppendCommitIdentity) :
    List (String × String) :=
  [ (commitIdProperty, codec.uuidToString identity.commitId.uuid),
    (writerIdProperty, codec.uuidToString identity.writerId.uuid),
    (writerEpochProperty, Nat.repr identity.writerEpoch.value),
    (generationMinProperty, Nat.repr identity.generations.lo),
    (generationMaxProperty, Nat.repr identity.generations.hi),
    (tableUuidProperty, codec.uuidToString tableUuid),
    (protocolVersionProperty, Nat.repr writeProtocolVersion) ]

/-- Match a snapshot against an exact append identity. -/
def snapshotMatchesAppendIdentity (table : TableIdent) (tableUuid : Uuid)
    (identity : AppendCommitIdentity) (snapshotId : Int) (properties : Properties) :
    TeoDBResult Bool :=
  let commitId := codec.uuidToString identity.commitId.uuid
  if properties.find? commitIdProperty ≠ some commitId then .ok false
  else
    match (appendSnapshotIdentityProperties codec tableUuid identity).find?
        fun p => properties.find? p.1 ≠ some p.2 with
    | some (key, _) =>
      .error (.metadataCorruption table
        s!"snapshot {snapshotId} reuses commit ID {commitId} with mismatched {key}")
    | none => .ok true

namespace WriterCheckpoint

def new (epoch : WriterEpoch) (generation : Nat) (commitId : CommitId)
    (committedAtMs : Int) : WriterCheckpoint :=
  ⟨writeProtocolVersion, epoch, generation, commitId, committedAtMs⟩

def encode (c : WriterCheckpoint) : TeoDBResult String :=
  match codec.checkpointToJson c with
  | .ok text => .ok text
  | .error error => .error (.internal s!"serialize writer checkpoint: {error}")

/-- The first rule that a parsed checkpoint breaks, as the source words it. -/
def malformed (writer : String) (c : WriterCheckpoint) : Option String :=
  if c.version ≠ writeProtocolVersion then
    some s!"unsupported writer checkpoint version {c.version} for {writer}"
  else if c.epoch = WriterEpoch.zero then
    some s!"writer checkpoint for {writer} has zero epoch"
  else if c.generation = 0 then
    some s!"writer checkpoint for {writer} has zero generation"
  else if c.commitId.uuid.isNil then
    some s!"writer checkpoint for {writer} has a nil commit ID"
  else if c.committedAtMs < 0 then
    some s!"writer checkpoint for {writer} has a negative timestamp"
  else none

def decode (table : TableIdent) (writerId : WriterId) (value : String) :
    TeoDBResult WriterCheckpoint :=
  let writer := codec.uuidToString writerId.uuid
  if value.utf8ByteSize > maxWriterCheckpointValueBytes then
    .error (.metadataCorruption table
      s!"writer checkpoint for {writer} exceeds {maxWriterCheckpointValueBytes} bytes")
  else
    match codec.checkpointFromJson value with
    | .error error =>
      .error (.metadataCorruption table
        s!"malformed writer checkpoint for {writer}: {error}")
    | .ok checkpoint =>
      match checkpoint.malformed writer with
      | some message => .error (.metadataCorruption table message)
      | none => .ok checkpoint

lemma decode_eq_ok {codec : TextCodec} {tb : TableIdent} {writerId : WriterId}
    {v : String} {cp : WriterCheckpoint} :
    decode codec tb writerId v = .ok cp ↔ v.utf8ByteSize ≤ maxWriterCheckpointValueBytes ∧
        codec.checkpointFromJson v = .ok cp ∧
        cp.malformed (codec.uuidToString writerId.uuid) = none := by
  unfold decode
  by_cases hs : v.utf8ByteSize > maxWriterCheckpointValueBytes
  · simp [hs]
  · cases hjson : codec.checkpointFromJson v with
    | error e => simp [hs]
    | ok parsed =>
      cases hbad : parsed.malformed (codec.uuidToString writerId.uuid) with
      | some message =>
        simp only [hs, if_false, hbad, reduceCtorEq, Except.ok.injEq, false_iff, not_and]
        rintro _ rfl
        simp [hbad]
      | none =>
        simp only [hs, if_false, hbad, Except.ok.injEq]
        constructor
        · rintro rfl
          exact ⟨not_lt.mp hs, rfl, hbad⟩
        · rintro ⟨_, rfl, _⟩
          rfl

end WriterCheckpoint

def writerCheckpointKey (writerId : WriterId) : String :=
  writerCheckpointPrefix ++ codec.uuidToString writerId.uuid

def parseWriterCheckpoint (table : TableIdent) (properties : Properties)
    (writerId : WriterId) : TeoDBResult (Option WriterCheckpoint) :=
  match properties.find? (writerCheckpointKey codec writerId) with
  | none => .ok none
  | some value => (WriterCheckpoint.decode codec table writerId value).map some

lemma parseWriterCheckpoint_eq_some {codec : TextCodec} {tbl : TableIdent}
    {props : Properties} {writerId : WriterId} {cp : WriterCheckpoint} :
    parseWriterCheckpoint codec tbl props writerId = .ok (some cp) ↔
      ∃ v, props.find? (writerCheckpointKey codec writerId) = some v ∧
        WriterCheckpoint.decode codec tbl writerId v = .ok cp := by
  unfold parseWriterCheckpoint
  cases props.find? (writerCheckpointKey codec writerId) with
  | none => simp
  | some v =>
    cases hdec : WriterCheckpoint.decode codec tbl writerId v with
    | error e => simp [hdec, Except.map]
    | ok found => simp [hdec, Except.map]

/-- The text after a given beginning. -/
def stripStart (start text : String) : Option String :=
  if start.toList.isPrefixOf text.toList then
    some (String.ofList (text.toList.drop start.toList.length))
  else none

/-- Check one entry whose key has the registry's beginning. -/
def validateWriterCheckpointEntry (table : TableIdent) (key suffix value : String) :
    TeoDBResult Unit :=
  match codec.uuidParseStr suffix with
  | .error error =>
    .error (.metadataCorruption table s!"malformed writer checkpoint key '{key}': {error}")
  | .ok writerUuid =>
    if writerUuid.isNil ∨ suffix ≠ codec.uuidToString writerUuid then
      .error (.metadataCorruption table
        s!"writer checkpoint key '{key}' is not a canonical, non-nil writer ID")
    else (WriterCheckpoint.decode codec table ⟨writerUuid⟩ value).map fun _ => ()

/-- Validate every writer-registry entry, those of other writers included, and
count them. -/
def validateWriterCheckpointEntries (table : TableIdent) :
    List (String × String) → TeoDBResult Nat
  | [] => .ok 0
  | (key, value) :: rest =>
    match stripStart writerCheckpointPrefix key with
    | none => validateWriterCheckpointEntries table rest
    | some suffix =>
      match validateWriterCheckpointEntry codec table key suffix value with
      | .error error => .error error
      | .ok _ => (validateWriterCheckpointEntries table rest).map (· + 1)

def validateWriterCheckpoints (table : TableIdent) (properties : Properties) :
    TeoDBResult Nat :=
  validateWriterCheckpointEntries codec table properties.entries

end

end TeoDB.Core

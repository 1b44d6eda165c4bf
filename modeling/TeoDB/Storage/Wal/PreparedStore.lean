import TeoDB.Storage.Wal.Prepared
import TeoDB.Storage.Wal.Record

/-!
# The directory of prepared intents

One file for each table incarnation holds the intent that is being published. An
existing file is never replaced: persisting the same intent again succeeds, and
persisting another one fails until the file is removed.

## Implementation notes

A file is kept as the intent it was written with. The length of its text, and what parsing that
text yields, are parameters: a float that is not finite is written as `null`, and another one may
be read as a neighbour. A failure of the file system names its error, and says whether the file had
been renamed or removed before it.
-/

namespace TeoDB.Storage.Wal

open TeoDB.Core Lib Lib.MachineInt

inductive DataContent where
  | data
  | positionDelete
  | equalityDelete
deriving DecidableEq

inductive FileFormat where
  | parquet
deriving DecidableEq

inductive StorageScheme where
  | s3
  | gcs
  | azureBlob
  | local
deriving DecidableEq

/-- The debug rendering of a scheme. -/
def StorageScheme.debug : StorageScheme → String
  | .s3 => "S3"
  | .gcs => "Gcs"
  | .azureBlob => "AzureBlob"
  | .local => "Local"

/-- What the validation of an intent reads of a data file. -/
structure DataFileHead where
  scheme : StorageScheme
  bucket : Option String
  key : String
  content : DataContent
  format : FileFormat
  recordCount : Nat

structure PreparedConfig (F : Type) where
  expectedWriter : WriterId
  maxFiles : Nat
  maxBytes : Nat
  uuidToString : Uuid → String
  head : F → DataFileHead
  payloadLen : PreparedFlush F → Nat
  /-- What is parsed from the text of an intent. -/
  readBack : PreparedFlush F → Except String (PreparedFlush F)

/-- A failure of the file system. -/
structure FileFault where
  message : String
  cause : String
  applied : Bool
deriving DecidableEq

def FileFault.error (fault : FileFault) : TeoDBError := .wal fault.message (some fault.cause)

abbrev PreparedDir (F : Type) := Uuid → Option (PreparedFlush F)

namespace PreparedStore

variable {F : Type} (cfg : PreparedConfig F)

/-- The last index of a component. -/
def rposition (component : List Char) (components : List (List Char)) : Option Nat :=
  (components.reverse.findIdx? (· == component)).map fun index => components.length - 1 - index

/-- Whether a path ends in the writer's directory and one file, below a `data` directory. -/
def isWriterOwned (writer : List Char) (components : List (List Char)) : Bool :=
  match rposition writer components, components.findIdx? (· == "data".toList) with
  | some index, some data => index + 2 == components.length && decide (data < index)
  | _, _ => false

/-- The first thing that is wrong with one data file. -/
def dataFileError (prepared : PreparedFlush F) (file : DataFileHead) : Option String :=
  let components := file.key.toList.splitOn '/'
  let writer := (cfg.uuidToString prepared.writerId.uuid).toList
  let commitId := cfg.uuidToString prepared.commitId.uuid
  let fileName := components.getLast?.getD []
  if file.key.toList.head? = some '/' ∨
      components.any (fun component => component == [] || component == ['.', '.']) ∨
      !isWriterOwned writer components then
    some s!"prepared data file path is outside the writer data subtree: {file.key}"
  else if !(commitId.toList ++ ['-']).isPrefixOf fileName ∨
      !".parquet".toList.isSuffixOf fileName then
    some s!"prepared data file '{file.key}' is not owned by commit {commitId}"
  else if file.content ≠ .data ∨ file.format ≠ .parquet then
    some s!"prepared file '{file.key}' is not a Parquet data file"
  else none

def uniquePath (file : DataFileHead) : String :=
  let bucket := file.bucket.getD ""
  s!"{file.scheme.debug}|{bucket}|{file.key}"

/-- Check the data files in order and add up their records. -/
def validateFiles (prepared : PreparedFlush F) :
    List String → Nat → List DataFileHead → TeoDBResult Nat
  | _, fileRecords, [] => .ok fileRecords
  | seenPaths, fileRecords, file :: rest =>
    match dataFileError cfg prepared file with
    | some message => .error (walError message)
    | none =>
      if uniquePath file ∈ seenPaths then
        .error (walError s!"prepared intent repeats data file '{file.key}'")
      else
        match checkedAdd fileRecords file.recordCount with
        | none => .error (walError "prepared file record count overflow")
        | some fileRecords =>
          validateFiles prepared (uniquePath file :: seenPaths) fileRecords rest

/-- The first thing that is wrong with the fields of an intent. -/
def invalid (prepared : PreparedFlush F) : Option String :=
  if prepared.version ≠ writeProtocolVersion then
    some s!"unsupported prepared intent version {prepared.version}"
  else if prepared.tableUuid.isNil then some "prepared intent has nil table UUID"
  else if prepared.writerId.uuid.isNil then some "prepared intent has nil writer ID"
  else if prepared.writerId ≠ cfg.expectedWriter then
    some (s!"prepared intent writer {cfg.uuidToString prepared.writerId.uuid} does not match " ++
      s!"WAL writer {cfg.uuidToString cfg.expectedWriter.uuid}")
  else if prepared.dataFiles.length > cfg.maxFiles then
    some (s!"prepared intent has {prepared.dataFiles.length} files, " ++
      s!"exceeding limit {cfg.maxFiles}")
  else if prepared.writerEpoch = WriterEpoch.zero then some "prepared intent has zero writer epoch"
  else if prepared.commitId.uuid.isNil then some "prepared intent has nil commit ID"
  else if prepared.generations.lo = 0 ∨ prepared.generations.lo > prepared.generations.hi then
    some "prepared intent has an invalid generation range"
  else if prepared.recordCount = 0 then some "prepared intent has zero records"
  else if prepared.preparedAtMs < 0 then
    some "prepared intent has a negative preparation timestamp"
  else if prepared.dataFiles.isEmpty then some "prepared intent has no data files"
  else none

def validate (prepared : PreparedFlush F) : TeoDBResult Unit :=
  match invalid cfg prepared with
  | some message => .error (walError message)
  | none =>
    match validateFiles cfg prepared [] 0 (prepared.dataFiles.map cfg.head) with
    | .error error => .error error
    | .ok fileRecords =>
      if fileRecords ≠ prepared.recordCount then
        .error (walError (s!"prepared file record count {fileRecords} does not match " ++
          s!"intent count {prepared.recordCount}"))
      else .ok ()

/-- Read the file that was written with an intent. -/
def readOne (existing : PreparedFlush F) (fault : Option FileFault) :
    TeoDBResult (PreparedFlush F) :=
  match fault with
  | some fault => .error fault.error
  | none =>
    if cfg.payloadLen existing = 0 ∨ cfg.payloadLen existing > cfg.maxBytes then
      .error (walError (s!"prepared intent {cfg.uuidToString existing.tableUuid}.json has " ++
        s!"invalid size {cfg.payloadLen existing} (limit {cfg.maxBytes})"))
    else
      match cfg.readBack existing with
      | .error cause => .error (.wal "parse prepared intent" (some cause))
      | .ok stored =>
        match validate cfg stored with
        | .error error => .error error
        | .ok _ =>
          if stored.tableUuid = existing.tableUuid then .ok stored
          else .error (walError ("prepared intent filename does not match table UUID " ++
            cfg.uuidToString stored.tableUuid))

def write (dir : PreparedDir F) (prepared : PreparedFlush F) : PreparedDir F :=
  Function.update dir prepared.tableUuid (some prepared)

section

variable [BEq F]

/-- Write an intent that has no file yet, or confirm that its file holds it. -/
def persist (dir : PreparedDir F) (prepared : PreparedFlush F) (fault : Option FileFault) :
    TeoDBResult Unit × PreparedDir F :=
  match validate cfg prepared with
  | .error error => (.error error, dir)
  | .ok _ =>
    match dir prepared.tableUuid with
    | some existing =>
      match readOne cfg existing fault with
      | .error error => (.error error, dir)
      | .ok existing =>
        if existing == prepared then (.ok (), dir)
        else
          (.error (walError ("different prepared intent already exists for table " ++
            s!"{prepared.table} ({cfg.uuidToString prepared.tableUuid})")), dir)
    | none =>
      if cfg.payloadLen prepared > cfg.maxBytes then
        (.error (walError (s!"prepared intent is {cfg.payloadLen prepared} bytes, " ++
          s!"exceeding limit {cfg.maxBytes}")), dir)
      else
        match fault with
        | some fault =>
          (.error fault.error, if fault.applied then write dir prepared else dir)
        | none => (.ok (), write dir prepared)

end

/-- Remove the file of a table incarnation, if there is one. -/
def remove (dir : PreparedDir F) (tableUuid : Uuid) (fault : Option FileFault) :
    TeoDBResult Unit × PreparedDir F :=
  match fault with
  | some fault =>
    (.error fault.error, if fault.applied then Function.update dir tableUuid none else dir)
  | none => (.ok (), Function.update dir tableUuid none)

/-- The file of an intent has an allowed size and is read back as a valid intent of its table. -/
def Reads (existing stored : PreparedFlush F) : Prop :=
  0 < cfg.payloadLen existing ∧ cfg.payloadLen existing ≤ cfg.maxBytes ∧
    cfg.readBack existing = .ok stored ∧ validate cfg stored = .ok () ∧
    stored.tableUuid = existing.tableUuid

/-- What the store accepts: a valid intent within the limit that has no file yet, or that is equal
to what is read back from its file. -/
def Accepts [BEq F] (dir : PreparedDir F) (prepared : PreparedFlush F)
    (fault : Option FileFault) : Prop :=
  fault = none ∧ validate cfg prepared = .ok () ∧
    match dir prepared.tableUuid with
    | none => cfg.payloadLen prepared ≤ cfg.maxBytes
    | some existing =>
      ∃ stored, Reads cfg existing stored ∧ (stored == prepared) = true

section

variable [BEq F] {cfg} {dir : PreparedDir F} {prep : PreparedFlush F}
  {ft : Option FileFault}

lemma persist_of_some {uuid : Uuid} {ex : PreparedFlush F} (h : dir uuid = some ex) :
    (persist cfg dir prep ft).2 uuid = some ex := by
  have hw : dir prep.tableUuid = none → write dir prep uuid = some ex := by
    intro hn
    have hne : uuid ≠ prep.tableUuid := by
      rintro rfl
      rw [hn] at h
      cases h
    rw [write, Function.update_of_ne hne, h]
  unfold persist
  split
  · exact h
  · split
    · split
      · exact h
      · split <;> exact h
    · rename_i hn
      split_ifs
      · exact h
      · split
        · dsimp only
          split
          · exact hw hn
          · exact h
        · exact hw hn

omit [BEq F] in
lemma readOne_eq_ok_iff {ex e : PreparedFlush F} :
    readOne cfg ex ft = .ok e ↔ ft = none ∧ Reads cfg ex e := by
  unfold readOne Reads
  cases ft with
  | some ft => simp
  | none =>
    by_cases hs : cfg.payloadLen ex = 0 ∨ cfg.payloadLen ex > cfg.maxBytes
    · rw [if_pos hs]
      constructor
      · intro h
        cases h
      · rintro ⟨_, hpos, hle, _⟩
        omega
    · have hbd : 0 < cfg.payloadLen ex ∧ cfg.payloadLen ex ≤ cfg.maxBytes := by
        omega
      rw [if_neg hs]
      cases cfg.readBack ex with
      | error cause => simp
      | ok stored =>
        cases hvd : validate cfg stored with
        | error error =>
          simp only [hvd, reduceCtorEq, Except.ok.injEq, false_iff]
          rintro ⟨_, _, _, rfl, hok, _⟩
          rw [hvd] at hok
          cases hok
        | ok u =>
          simp only [hvd, hbd, Except.ok.injEq, true_and]
          split_ifs with hu
          · rw [Except.ok.injEq]
            constructor
            · rintro rfl
              exact ⟨rfl, hvd, hu⟩
            · exact fun h => h.1
          · simp only [false_iff]
            rintro ⟨rfl, _, heq⟩
            exact hu heq

lemma persist_eq_ok_iff : (persist cfg dir prep ft).1 = .ok () ↔ Accepts cfg dir prep ft := by
  unfold persist Accepts
  cases validate cfg prep with
  | error err => simp
  | ok u =>
    cases dir prep.tableUuid with
    | none =>
      dsimp only
      split_ifs with hs
      · simp
        omega
      · cases ft with
        | none => simpa using hs
        | some ft => simp
    | some ex =>
      dsimp only
      cases hr : readOne cfg ex ft with
      | error err =>
        simp only [reduceCtorEq, false_iff, true_and]
        rintro ⟨hfault, stored, hreads, _⟩
        rw [readOne_eq_ok_iff.mpr ⟨hfault, hreads⟩] at hr
        cases hr
      | ok e =>
        obtain ⟨rfl, hreads⟩ := readOne_eq_ok_iff.mp hr
        dsimp only
        split_ifs with heq
        · simpa using ⟨e, hreads, heq⟩
        · simp only [false_iff, true_and]
          rintro ⟨stored, hstored, hsame⟩
          rw [Except.ok.inj (hstored.2.2.1.symm.trans hreads.2.2.1)] at hsame
          exact heq hsame

end

end PreparedStore

end TeoDB.Storage.Wal

import TeoDB.Storage.DataFile

/-!
# The sidecar files of prepared intents

An intent is written as a JSON file that is named after the incarnation of its table. A
listing reads every file and fails if one of them cannot be read.

What has been persisted is listed exactly if the floating-point bounds and partition
values of its files are printed and read as themselves. One that is infinite or not a
number is written as `null`, which the listing refuses.

## Implementation notes

A failure of the file system is as in `PreparedStore`; a listing has none.
-/

namespace TeoDB.Storage.Wal

open TeoDB.Core TeoDB.Core.PlainText Lib Lib.MachineInt

namespace Wire

open Storage.Wire

def tableIdent : Serde TableIdent :=
  .record (.cons "namespace" .string <| .cons "name" .string .nil) (by simp) false
    { toFun := fun t => (t.nameSpace, t.name, ())
      invFun := fun (nameSpace, name, _) => ⟨nameSpace, name⟩ }

def writerId : Serde WriterId := uuid.equiv ⟨WriterId.uuid, WriterId.mk, fun _ => rfl, fun _ => rfl⟩

def commitId : Serde CommitId := uuid.equiv ⟨CommitId.uuid, CommitId.mk, fun _ => rfl, fun _ => rfl⟩

def writerEpoch : Serde WriterEpoch :=
  (Serde.natTo u64Max).equiv ⟨WriterEpoch.value, WriterEpoch.mk, fun _ => rfl, fun _ => rfl⟩

def generationRange : Serde GenerationRange :=
  .record (.cons "lo" (.natTo u64Max) <| .cons "hi" (.natTo u64Max) .nil) (by simp) false
    { toFun := fun g => (g.lo, g.hi, ())
      invFun := fun (lo, hi, _) => ⟨lo, hi⟩ }

/-- Signed numbers of 64 bits that are kept as integers. -/
def i64 : Serde Int := .intIn (-2 ^ 63) (2 ^ 63 - 1)

def preparedFlush (texts : NumberTexts) : Serde (PreparedFlush DataFile) :=
  .record
    (.cons "version" (.natTo 65535) <| .cons "table" tableIdent <| .cons "table_uuid" uuid <|
      .cons "writer_id" writerId <| .cons "writer_epoch" writerEpoch <|
      .cons "commit_id" commitId <| .cons "generations" generationRange <|
      .cons "record_count" (.natTo u64Max) <| .cons "prepared_at_ms" i64 <|
      .cons "data_files" (.list (dataFile texts)) <|
      .cons "base_snapshot_id" (.option i64 nofun) .nil)
    (by simp) true
    { toFun := fun p => (p.version, p.table, p.tableUuid, p.writerId, p.writerEpoch, p.commitId,
        p.generations, p.recordCount, p.preparedAtMs, p.dataFiles, p.baseSnapshotId, ())
      invFun := fun (version, table, tableUuid, writerId, writerEpoch, commitId, generations,
          recordCount, preparedAtMs, dataFiles, baseSnapshotId, _) =>
        ⟨version, table, tableUuid, writerId, writerEpoch, commitId, generations, recordCount,
          preparedAtMs, dataFiles, baseSnapshotId⟩ }

end Wire

/-- The numbers of an intent are in the ranges of their machine types. -/
structure PreparedFlush.InRange {F : Type} (p : PreparedFlush F) : Prop where
  version : p.version ≤ 65535
  writerEpoch : p.writerEpoch.value ≤ u64Max
  lo : p.generations.lo ≤ u64Max
  hi : p.generations.hi ≤ u64Max
  recordCount : p.recordCount ≤ u64Max
  preparedAtMs : -2 ^ 63 ≤ p.preparedAtMs ∧ p.preparedAtMs ≤ 2 ^ 63 - 1
  baseSnapshotId : ∀ id ∈ p.baseSnapshotId, -2 ^ 63 ≤ id ∧ id ≤ 2 ^ 63 - 1

/-- The floating-point numbers of an intent's files are read back. -/
def PreparedFlush.Kept (texts : NumberTexts) (p : PreparedFlush DataFile) : Prop :=
  ∀ file ∈ p.dataFiles, file.Kept texts

lemma Wire.preparedFlush_fits_iff (texts : NumberTexts) {p : PreparedFlush DataFile}
    (h : p.InRange) : (Wire.preparedFlush texts).Fits p ↔ p.Kept texts := by
  have hfs : (∀ file ∈ p.dataFiles, (Storage.Wire.dataFile texts).Fits file) ↔ p.Kept texts :=
    forall₂_congr fun file _ => Storage.Wire.dataFile_fits_iff texts file
  rw [← hfs]
  constructor
  · rintro ⟨_, _, _, _, _, _, _, _, _, hdat, _⟩
    exact hdat
  · intro hdat
    exact ⟨h.version, ⟨trivial, trivial, trivial⟩, trivial, trivial, h.writerEpoch, trivial,
      ⟨h.lo, h.hi, trivial⟩, h.recordCount, h.preparedAtMs, hdat, h.baseSnapshotId, trivial⟩

def DataFile.head (file : DataFile) : DataFileHead :=
  ⟨file.path.scheme, file.path.bucket, file.path.key, file.content, file.format,
    file.recordCount.toNat⟩

/-- The settings of a sidecar directory and the JSON library it is written with. -/
structure SidecarStore where
  expectedWriter : WriterId
  maxFiles : Nat
  maxBytes : Nat
  text : JsonText
  numbers : NumberTexts

namespace SidecarStore

variable (store : SidecarStore)

/-- The files of the directory by the incarnation they are named after. -/
abbrev Sidecars := OrdMap Uuid store.text.Text

def payload (prepared : PreparedFlush DataFile) : store.text.Text :=
  store.text.pretty ((Wire.preparedFlush store.numbers).ser prepared)

def parse (bytes : store.text.Text) : Except String (PreparedFlush DataFile) :=
  store.text.parse bytes >>= (Wire.preparedFlush store.numbers).de

def config : PreparedConfig DataFile where
  expectedWriter := store.expectedWriter
  maxFiles := store.maxFiles
  maxBytes := store.maxBytes
  uuidToString u := String.ofList (uuidChars u)
  head := DataFile.head
  payloadLen prepared := store.text.length (store.payload prepared)
  readBack prepared := store.parse (store.payload prepared)

def readOne (tableUuid : Uuid) (bytes : store.text.Text) : TeoDBResult (PreparedFlush DataFile) :=
  let length := store.text.length bytes
  if length = 0 ∨ length > store.maxBytes then
    .error (walError (s!"prepared intent {store.config.uuidToString tableUuid}.json has " ++
      s!"invalid size {length} (limit {store.maxBytes})"))
  else
    match store.parse bytes with
    | .error cause => .error (.wal "parse prepared intent" (some cause))
    | .ok prepared =>
      match PreparedStore.validate store.config prepared with
      | .error error => .error error
      | .ok _ =>
        if prepared.tableUuid = tableUuid then .ok prepared
        else .error (walError ("prepared intent filename does not match table UUID " ++
          store.config.uuidToString prepared.tableUuid))

variable (dir : store.Sidecars)

/-- Write an intent that has no file yet, or confirm that its file holds it. -/
def persist (prepared : PreparedFlush DataFile) (fault : Option FileFault) :
    TeoDBResult Unit × store.Sidecars :=
  match PreparedStore.validate store.config prepared with
  | .error error => (.error error, dir)
  | .ok _ =>
    match dir.find? prepared.tableUuid, fault with
    | some bytes, none =>
      match store.readOne prepared.tableUuid bytes with
      | .error error => (.error error, dir)
      | .ok existing =>
        if existing == prepared then (.ok (), dir)
        else
          (.error (walError ("different prepared intent already exists for table " ++
            s!"{prepared.table} ({store.config.uuidToString prepared.tableUuid})")), dir)
    | some _, some fault => (.error fault.error, dir)
    | none, fault =>
      let payload := store.payload prepared
      let length := store.text.length payload
      if length > store.maxBytes then
        (.error (walError (s!"prepared intent is {length} bytes, " ++
          s!"exceeding limit {store.maxBytes}")), dir)
      else
        match fault with
        | some fault =>
          (.error fault.error,
            if fault.applied then dir.insert prepared.tableUuid payload else dir)
        | none => (.ok (), dir.insert prepared.tableUuid payload)

def list : TeoDBResult (List (PreparedFlush DataFile)) :=
  dir.entries.mapM fun file => store.readOne file.1 file.2

/-- Every file of the directory can be read. -/
def Readable : Prop :=
  ∀ file ∈ dir.entries, ∃ prepared, store.readOne file.1 file.2 = .ok prepared

/-- A listing has the intent, and no other one of its table. -/
def Returns (prepared : PreparedFlush DataFile) : Prop :=
  ∃ intents, store.list dir = .ok intents ∧ prepared ∈ intents ∧
    ∀ other ∈ intents, other.tableUuid = prepared.tableUuid → other = prepared

/-- Before an intent is persisted every file there can be read, and if the table has a file it holds
this intent, if not the intent's floating-point numbers are read back. -/
def Keeps (prepared : PreparedFlush DataFile) : Prop :=
  store.Readable dir ∧
    match dir.find? prepared.tableUuid with
    | none => prepared.Kept store.numbers
    | some bytes => store.readOne prepared.tableUuid bytes = .ok prepared

variable {store} {prep : PreparedFlush DataFile}

lemma readOne_eq_ok_iff {uuid : Uuid} {bs : store.text.Text} : store.readOne uuid bs = .ok prep ↔
      0 < store.text.length bs ∧ store.text.length bs ≤ store.maxBytes ∧ store.parse bs = .ok prep ∧
        PreparedStore.validate store.config prep = .ok () ∧ prep.tableUuid = uuid := by
  unfold readOne
  dsimp only
  split_ifs with hsize
  · simp only [false_iff]
    rintro ⟨hpos, hle, _⟩
    omega
  · have hbd : 0 < store.text.length bs ∧ store.text.length bs ≤ store.maxBytes := by
      omega
    cases store.parse bs with
    | error cause => simp
    | ok parsed =>
      cases hvd : PreparedStore.validate store.config parsed with
      | error e =>
        simp only [hvd, reduceCtorEq, Except.ok.injEq, false_iff]
        rintro ⟨_, _, rfl, hok, _⟩
        rw [hvd] at hok
        cases hok
      | ok u =>
        simp only [hvd]
        split_ifs with hu
        · simp only [Except.ok.injEq, hbd, true_and]
          constructor
          · rintro rfl
            exact ⟨rfl, hvd, hu⟩
          · exact fun h => h.1
        · simp only [Except.ok.injEq, false_iff]
          rintro ⟨_, _, rfl, _, heq⟩
          exact hu heq

/-- The written text is read back exactly if the floating-point numbers are. -/
theorem parse_payload_iff (h : prep.InRange) :
    store.parse (store.payload prep) = .ok prep ↔ prep.Kept store.numbers := by
  rw [parse, payload, store.text.parse_pretty, ← Wire.preparedFlush_fits_iff store.numbers h,
    ← Serde.de_ser_iff]
  rfl

lemma returns_iff {dir : store.Sidecars} :
    store.Returns dir prep ↔ store.Readable dir ∧ ∃ bs, dir.find? prep.tableUuid = some bs ∧
        store.readOne prep.tableUuid bs = .ok prep := by
  constructor
  · rintro ⟨its, hl, hmem, _⟩
    obtain ⟨hrd, hint⟩ := mem_of_mapM_eq_ok hl
    obtain ⟨⟨uuid, bs⟩, hf, hr⟩ := (hint prep).mp hmem
    obtain rfl := (readOne_eq_ok_iff.mp hr).2.2.2.2
    exact ⟨hrd, bs, (dir.find?_eq_some_iff _ _).mpr hf, hr⟩
  · rintro ⟨hrd, bs, hfind, hr⟩
    obtain ⟨its, hl⟩ := exists_mapM_eq_ok hrd
    obtain ⟨_, hint⟩ := mem_of_mapM_eq_ok hl
    have hf := (dir.find?_eq_some_iff _ _).mp hfind
    refine ⟨its, hl, (hint prep).mpr ⟨_, hf, hr⟩, ?_⟩
    intro o hot hu
    obtain ⟨⟨uuid, otherBytes⟩, hote, hoth⟩ := (hint o).mp hot
    obtain rfl := (readOne_eq_ok_iff.mp hoth).2.2.2.2
    rw [hu] at hote hoth
    rw [dir.eq_of_mem_entries hote hf, hr] at hoth
    exact (Except.ok.inj hoth).symm

lemma persist_eq_ok {dir dir' : store.Sidecars} {ft : Option FileFault}
    (h : store.persist dir prep ft = (.ok (), dir')) :
    PreparedStore.validate store.config prep = .ok () ∧
      ((∃ bs, dir.find? prep.tableUuid = some bs ∧ dir' = dir) ∨ (dir.find? prep.tableUuid = none ∧
          store.text.length (store.payload prep) ≤ store.maxBytes ∧
          dir' = dir.insert prep.tableUuid (store.payload prep))) := by
  unfold persist at h
  cases hvd : PreparedStore.validate store.config prep with
  | error e => simp [hvd] at h
  | ok u =>
    refine ⟨rfl, ?_⟩
    rw [hvd] at h
    cases hf : dir.find? prep.tableUuid with
    | some bs =>
      left
      refine ⟨bs, rfl, ?_⟩
      cases ft with
      | some ft => simp [hf] at h
      | none =>
        cases hr : store.readOne prep.tableUuid bs with
        | error e => simp [hf, hr] at h
        | ok ex =>
          simp only [hf, hr] at h
          split_ifs at h
          · exact (Prod.ext_iff.mp h).2.symm
          · cases h
    | none =>
      right
      simp only [hf] at h
      split_ifs at h with hs
      · cases h
      · cases ft with
        | some ft => simp at h
        | none => exact ⟨rfl, not_lt.mp hs, (Prod.ext_iff.mp h).2.symm⟩

lemma readable_insert_iff {dir : store.Sidecars} {uuid : Uuid} {bs : store.text.Text}
    (h : dir.find? uuid = none) : store.Readable (dir.insert uuid bs) ↔
      (∃ prep, store.readOne uuid bs = .ok prep) ∧ store.Readable dir := by
  unfold Readable
  simp only [(dir.insert_perm bs h).mem_iff, List.forall_mem_cons]

/-- A persisted intent is returned exactly if it was kept. -/
theorem returns_persist_iff {dir dir' : store.Sidecars} {ft : Option FileFault}
    (hrg : prep.InRange) (h : store.persist dir prep ft = (.ok (), dir')) :
    store.Returns dir' prep ↔ store.Keeps dir prep := by
  obtain ⟨hvd, ⟨bytes, hf, rfl⟩ | ⟨hf, hs, rfl⟩⟩ := persist_eq_ok h
  · rw [returns_iff, Keeps, hf]
    simp
  · have hr : store.readOne prep.tableUuid (store.payload prep) = .ok prep ↔
        prep.Kept store.numbers := by
      have hpos : 0 < store.text.length (store.payload prep) := store.text.length_pretty _
      rw [readOne_eq_ok_iff, ← parse_payload_iff hrg]
      simp [hvd, hs, hpos]
    rw [returns_iff, readable_insert_iff hf, Keeps, hf, dir.find?_insert, if_pos rfl]
    simp only [Option.some.injEq, exists_eq_left', hr]
    constructor
    · rintro ⟨⟨_, hrd⟩, hk⟩
      exact ⟨hrd, hk⟩
    · rintro ⟨hrd, hk⟩
      exact ⟨⟨⟨prep, hr.mpr hk⟩, hrd⟩, hk⟩

end SidecarStore

end TeoDB.Storage.Wal

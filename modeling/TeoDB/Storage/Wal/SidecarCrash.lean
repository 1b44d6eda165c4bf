import TeoDB.Lib.DirEntries
import TeoDB.Lib.Machine
import TeoDB.Storage.Wal.PreparedJson

/-!
# Sidecar files across crashes

An intent is written to a temporary file, which is synced, renamed to its name and followed by a
sync of the directory. A removal is an unlink and the same sync. The first call makes the directory
and does not sync the log's root above it, so a crash can take the directory with the intents of
completed calls, and the listing of a directory that is not there is empty.

## Implementation notes

A crash can come after every step of the file system, which has no other failure. The calls of one
table follow each other, as they do under its flush lock, and those of different tables overlap. A
file has the first bytes of its intent's text; one that is cut short cannot be parsed. Other parts
sync the root when they persist the checkpoint or the writer's identity.
-/

namespace TeoDB.Storage.Wal

open TeoDB.Core Lib

lemma list_beq_self {α : Type} [BEq α] {l : List α} (h : ∀ a ∈ l, (a == a) = true) :
    (l == l) = true := by
  induction l with
  | nil => rfl
  | cons a rest ih =>
    rw [List.forall_mem_cons] at h
    rw [List.cons_beq_cons, h.1, ih h.2, Bool.and_self]

lemma ordMap_beq_self {κ ν : Type} [LinearOrder κ] [BEq ν] {m : OrdMap κ ν}
    (h : ∀ v ∈ m.values, (v == v) = true) : (m == m) = true := by
  apply list_beq_self
  intro e he
  change (e.1 == e.1 && e.2 == e.2) = true
  rw [h e.2 (List.mem_map_of_mem he), beq_self_eq_true, Bool.and_self]

lemma float_eq_self {format : FloatFormat} {x : FloatBits format} (h : x.isFinite = true) :
    x.eq x = true := by
  have hnan := FloatBits.isNaN_eq_false_of_isFinite h
  simp [FloatBits.eq, FloatBits.partialCmp, hnan]

lemma scalar_beq_self {texts : NumberTexts} {v : TeoScalar}
    (h : Storage.Wire.ScalarKept texts v) : (v == v) = true := by
  change v.eq v = true
  cases v with
  | float32 x => exact float_eq_self h.1
  | float64 x => exact float_eq_self h.1
  | _ => simp [TeoScalar.eq]

lemma DataFile.beq_self_of_kept {texts : NumberTexts} {file : DataFile} (h : file.Kept texts) :
    (file == file) = true := by
  have hcou (m : OrdMap FieldId UInt64) : (m == m) = true :=
    ordMap_beq_self fun v _ => beq_self_eq_true v
  have hpar := ordMap_beq_self fun v hv => scalar_beq_self (h.partitionValues v hv)
  have hlower := ordMap_beq_self fun v hv => scalar_beq_self (h.lowerBounds v hv)
  have hupper := ordMap_beq_self fun v hv => scalar_beq_self (h.upperBounds v hv)
  change instBEqDataFile.beq file file = true
  simp [instBEqDataFile.beq, hcou, hpar, hlower, hupper]

lemma PreparedFlush.beq_self_of_kept {texts : NumberTexts} {p : PreparedFlush DataFile}
    (h : p.Kept texts) : (p == p) = true := by
  have hfs : (p.dataFiles == p.dataFiles) = true :=
    list_beq_self fun file hf => DataFile.beq_self_of_kept (h file hf)
  change instBEqPreparedFlush.beq p p = true
  simp [instBEqPreparedFlush.beq, hfs]

/-- An intent whose numbers have the widths of their types. -/
structure StorableIntent where
  flush : PreparedFlush DataFile
  inRange : flush.InRange

/-- A file with the first bytes of an intent, some of which are synced. -/
structure SidecarFile where
  intent : StorableIntent
  written : Nat
  synced : Nat

/-- How far the call of a table has come. -/
inductive SidecarCall where
  | idle
  | writing (temp : SidecarFile)
  | synced (temp : SidecarFile)
  | renamed (intent : StorableIntent)
  | unlinked

/-- What the table holds once its call is completed. -/
def SidecarCall.target : SidecarCall → Option (Option StorableIntent)
  | .idle => none
  | .writing temp => some (some temp.intent)
  | .synced temp => some (some temp.intent)
  | .renamed intent => some (some intent)
  | .unlinked => some none

namespace SidecarStore

variable (store : SidecarStore)

/-- `completed` is what the last completed call of a table left there. After a crash it is what was
found. Once it is there, `directory` says whether the name of the directory is safe. -/
structure CrashState where
  dir : DirEntries Uuid SidecarFile
  calls : Uuid → SidecarCall
  completed : Uuid → Option StorableIntent
  directory : Option Bool

/-- A step of the file system in a call or on the root, or a crash with what had reached the disk.
-/
inductive CrashLabel where
  | persist (intent : StorableIntent)
  | write (tableUuid : Uuid) (count : Nat)
  | syncFile (tableUuid : Uuid)
  | rename (tableUuid : Uuid)
  | remove (tableUuid : Uuid)
  | syncDirectory (tableUuid : Uuid)
  | syncRoot
  | crash (reached : List Bool) (bytes : Uuid → Nat) (lost : Bool)

def length (intent : StorableIntent) : Nat := store.text.length (store.payload intent.flush)

/-- The file once all of the intent is written and synced. -/
def whole (intent : StorableIntent) : SidecarFile :=
  ⟨intent, store.length intent, store.length intent⟩

def readFile (tableUuid : Uuid) (file : SidecarFile) : TeoDBResult (PreparedFlush DataFile) :=
  if file.written = store.length file.intent then
    store.readOne tableUuid (store.payload file.intent.flush)
  else .error (.wal "parse prepared intent" (some "EOF while parsing"))

def listFiles (files : OrdMap Uuid SidecarFile) : TeoDBResult (List (PreparedFlush DataFile)) :=
  files.entries.mapM fun file => store.readFile file.1 file.2

namespace CrashState

variable (s : CrashState)

/-- What `persist` finds before it writes. -/
def checkPersist (store : SidecarStore) (s : CrashState) (intent : StorableIntent) :
    TeoDBResult Bool :=
  let prepared := intent.flush
  match PreparedStore.validate store.config prepared with
  | .error error => .error error
  | .ok _ =>
    match s.dir.visible.find? prepared.tableUuid with
    | some file =>
      match store.readFile prepared.tableUuid file with
      | .error error => .error error
      | .ok existing =>
        if existing == prepared then .ok true
        else
          .error (walError ("different prepared intent already exists for table " ++
            s!"{prepared.table} ({store.config.uuidToString prepared.tableUuid})"))
    | none =>
      let length := store.length intent
      if length > store.maxBytes then
        .error (walError (s!"prepared intent is {length} bytes, " ++
          s!"exceeding limit {store.maxBytes}"))
      else .ok false

def setCall (tableUuid : Uuid) (call : SidecarCall) : CrashState :=
  { s with calls := Function.update s.calls tableUuid call }

/-- The end of a call: the directory is synced. -/
def complete (tableUuid : Uuid) (held : Option StorableIntent) : CrashState :=
  { s with
    dir := s.dir.sync
    calls := Function.update s.calls tableUuid .idle
    completed := Function.update s.completed tableUuid held }

/-- The files in the directory after a crash. A file keeps its synced bytes. -/
def filesLeft (reached : List Bool) (bytes : Uuid → Nat) : OrdMap Uuid SidecarFile :=
  (s.dir.crash reached).filterMap fun tableUuid file =>
    some { file with written := max file.synced (min (bytes tableUuid) file.written) }

/-- Only a directory whose name is not safe can be lost. -/
def loses (lost : Bool) : Bool := lost && s.directory == some false

/-- What a listing finds after a crash. -/
def crash (reached : List Bool) (bytes : Uuid → Nat) (lost : Bool) : OrdMap Uuid SidecarFile :=
  if s.loses lost then OrdMap.empty else s.filesLeft reached bytes

def next (store : SidecarStore) (s : CrashState) : CrashLabel → Option CrashState
  | .persist intent =>
    match s.calls intent.flush.tableUuid, s.checkPersist store intent with
    | .idle, .ok false =>
      some { s.setCall intent.flush.tableUuid (.writing ⟨intent, 0, 0⟩) with
        directory := some (s.directory.getD false) }
    | .idle, _ => some s
    | _, _ => none
  | .write tableUuid count =>
    match s.calls tableUuid with
    | .writing temp =>
      let written := min (temp.written + count) (store.length temp.intent)
      some (s.setCall tableUuid (.writing { temp with written }))
    | _ => none
  | .syncFile tableUuid =>
    match s.calls tableUuid with
    | .writing temp =>
      if temp.written = store.length temp.intent then
        some (s.setCall tableUuid (.synced { temp with synced := temp.written }))
      else none
    | _ => none
  | .rename tableUuid =>
    match s.calls tableUuid with
    | .synced temp =>
      some { s.setCall tableUuid (.renamed temp.intent) with
        dir := s.dir.set tableUuid (some temp) }
    | _ => none
  | .remove tableUuid =>
    match s.calls tableUuid, s.dir.visible.find? tableUuid with
    | .idle, some _ =>
      some { s.setCall tableUuid .unlinked with dir := s.dir.set tableUuid none }
    | .idle, none => some s
    | _, _ => none
  | .syncDirectory tableUuid =>
    match s.calls tableUuid with
    | .renamed intent => some (s.complete tableUuid (some intent))
    | .unlinked => some (s.complete tableUuid none)
    | _ => none
  | .syncRoot => some { s with directory := s.directory.map fun _ => true }
  | .crash reached bytes lost =>
    let left := s.crash reached bytes lost
    some ⟨⟨left, []⟩, fun _ => .idle, fun tableUuid => (left.find? tableUuid).map (·.intent),
      if s.loses lost then none else s.directory.map fun _ => true⟩

end CrashState

/-- The text of the intent is read back as a file of the table. -/
def Reads (tableUuid : Uuid) (intent : StorableIntent) : Prop :=
  store.readOne tableUuid (store.payload intent.flush) = .ok intent.flush

/-- Only an intent that reads back is written, and only a whole file is renamed. -/
def TempReady (tableUuid : Uuid) : SidecarCall → Prop
  | .writing temp => store.Reads tableUuid temp.intent
  | .synced temp => temp = store.whole temp.intent ∧ store.Reads tableUuid temp.intent
  | _ => True

/-- What is seen of a table whose last call left `completed`. -/
def seen (completed : Option StorableIntent) : SidecarCall → Option StorableIntent
  | .renamed intent => some intent
  | .unlinked => none
  | _ => completed

namespace CrashState

/-- The name of the directory is safe, or no completed call has left anything in it. -/
def Anchored (s : CrashState) : Prop :=
  s.directory ≠ some false ∨ ∀ u, s.completed u = none

/-- Intents have numbers that are read back, and crashes come while the directory is safe. -/
def Safe (store : SidecarStore) (s : CrashState) : CrashLabel → Prop
  | .persist intent => intent.flush.Kept store.numbers
  | .crash _ _ _ => s.Anchored
  | _ => True

/-- Whatever a crash may leave of a table is whole, and is of its last completed or its running
call. -/
structure TableInv (store : SidecarStore) (s : CrashState) (u : Uuid) : Prop where
  whole : ∀ file, s.dir.MayHold u (some file) →
    file = store.whole file.intent ∧ store.Reads u file.intent
  held : ∀ o, s.dir.MayHold u o →
    o.map (·.intent) = s.completed u ∨ (s.calls u).target = some (o.map (·.intent))
  visible : (s.dir.visible.find? u).map (·.intent) = seen (s.completed u) (s.calls u)
  temp : store.TempReady u (s.calls u)

variable {store : SidecarStore} {s s' : CrashState} {u : Uuid}

/-- A step that shows a table as before and adds nothing to what it may hold. -/
theorem TableInv.frame (h : s.TableInv store u) (hmay : ∀ o, s'.dir.MayHold u o → s.dir.MayHold u o)
    (hvis : s'.dir.visible.find? u = s.dir.visible.find? u) (hc : s'.calls u = s.calls u)
    (hcom : s'.completed u = s.completed u) : s'.TableInv store u where
  whole file hf := h.whole file (hmay _ hf)
  held o ho := by
    rw [hc, hcom]
    exact h.held o (hmay o ho)
  visible := by rw [hvis, hc, hcom, h.visible]
  temp := hc ▸ h.temp

section

variable (h : ∀ u, s.TableInv store u)

include h

/-- The step of a call that leaves the directory as it is. -/
theorem TableInv.setCall {k : Uuid} {call : SidecarCall}
    (htg : (s.calls k).target = none ∨ call.target = (s.calls k).target)
    (hs : ∀ completed, seen completed call = seen completed (s.calls k))
    (htemp : store.TempReady k call) : (s.setCall k call).TableInv store u := by
  by_cases hu : u = k
  · subst hu
    have hc : (s.setCall u call).calls u = call := Function.update_self ..
    exact {
      whole := (h u).whole
      held := fun o ho => by
        rw [hc]
        refine ((h u).held o ho).imp_right fun hold => ?_
        rcases htg with hn | heq
        · rw [hn] at hold
          cases hold
        · rw [heq, hold]
      visible := by
        rw [hc, hs]
        exact (h u).visible
      temp := by rwa [hc] }
  · exact (h u).frame (fun _ ho => ho) rfl (Function.update_of_ne hu _ _) rfl

lemma TableInv.set {k : Uuid} {call : SidecarCall} {o : Option SidecarFile}
    (htg : call.target = some (o.map (·.intent)))
    (hold : (s.calls k).target = none ∨ (s.calls k).target = call.target)
    (hs : ∀ completed, seen completed call = o.map (·.intent))
    (hwhole : ∀ file ∈ o, file = store.whole file.intent ∧ store.Reads k file.intent)
    (htemp : store.TempReady k call) :
    ({ s.setCall k call with dir := s.dir.set k o } : CrashState).TableInv store u := by
  by_cases hu : u = k
  · subst hu
    have hc : (s.setCall u call).calls u = call := Function.update_self ..
    exact {
      whole := fun file hf => by
        rcases DirEntries.mayHold_set.mp hf with hf | ⟨_, rfl⟩
        · exact (h u).whole file hf
        · exact hwhole file rfl
      held := fun p hp => by
        change _ ∨ ((s.setCall u call).calls u).target = _
        rw [hc]
        rcases DirEntries.mayHold_set.mp hp with hp | ⟨_, rfl⟩
        · refine ((h u).held p hp).imp_right fun hrun => ?_
          rcases hold with hn | heq
          · rw [hn] at hrun
            cases hrun
          · rw [← heq, hrun]
        · exact .inr htg
      visible := by
        change _ = seen _ ((s.setCall u call).calls u)
        rw [hc, hs, DirEntries.find?_visible_set, if_pos rfl]
      temp := by
        change store.TempReady u ((s.setCall u call).calls u)
        rwa [hc] }
  · refine (h u).frame (fun p hp => ?_) ?_ (Function.update_of_ne hu _ _) rfl
    · exact (DirEntries.mayHold_set.mp hp).resolve_right fun hk => hu hk.1
    · rw [DirEntries.find?_visible_set, if_neg hu]

/-- The end of a call. A sync settles the changes of every table. -/
theorem TableInv.complete {k : Uuid} {held : Option StorableIntent}
    (hs : ∀ completed, seen completed (s.calls k) = held) :
    (s.complete k held).TableInv store u := by
  have hmay : ∀ o, (s.complete k held).dir.MayHold u o → s.dir.MayHold u o := fun o ho =>
    DirEntries.mayHold_sync.mp ho ▸ DirEntries.mayHold_visible
  by_cases hu : u = k
  · subst hu
    have hc : (s.complete u held).calls u = .idle := Function.update_self ..
    have hhd : (s.complete u held).completed u = held := Function.update_self ..
    have hvis : (s.dir.visible.find? u).map (·.intent) = held := by
      rw [(h u).visible, hs]
    exact {
      whole := fun file hf => (h u).whole file (hmay _ hf)
      held := fun o ho => .inl (by rw [hhd, DirEntries.mayHold_sync.mp ho, hvis])
      visible := by
        rw [hc, hhd]
        exact hvis
      temp := hc ▸ trivial }
  · exact (h u).frame hmay rfl (Function.update_of_ne hu _ _) (Function.update_of_ne hu _ _)

/-- A crash leaves whole files, so what it finds of each is what was renamed. -/
theorem mayHold_filesLeft (reached : List Bool) (bs : Uuid → Nat) :
    s.dir.MayHold u ((s.filesLeft reached bs).find? u) := by
  have heq : (s.filesLeft reached bs).find? u = (s.dir.crash reached).find? u := by
    rw [filesLeft, OrdMap.find?_filterMap]
    cases hf : (s.dir.crash reached).find? u with
    | none => rfl
    | some file =>
      have hwhole := ((h u).whole file (hf ▸ DirEntries.mayHold_crash reached)).1
      obtain ⟨it, wr, synced⟩ := file
      obtain ⟨rfl, rfl⟩ : wr = store.length it ∧ synced = store.length it := by
        simpa [SidecarStore.whole] using hwhole
      simp
  exact heq ▸ DirEntries.mayHold_crash reached

/-- What is found of a table after a crash. -/
theorem crash_spec (ha : s.Anchored) (reached : List Bool) (bs : Uuid → Nat) (lost : Bool)
    {o : Option SidecarFile} (ho : o = (s.crash reached bs lost).find? u) :
    (∀ file ∈ o, file = store.whole file.intent ∧ store.Reads u file.intent) ∧
      (o.map (·.intent) = s.completed u ∨ (s.calls u).target = some (o.map (·.intent))) := by
  rw [crash] at ho
  split_ifs at ho with hl
  · -- the directory is lost, and nothing was in it
    have hu : s.completed u = none := by
      refine ha.resolve_left (fun hne => hne ?_) u
      simpa using (Bool.and_eq_true_iff.mp hl).2
    rw [ho, hu]
    exact ⟨fun file hf => absurd hf.symm (Option.some_ne_none file), .inl rfl⟩
  · have hmay : s.dir.MayHold u o := ho ▸ mayHold_filesLeft h reached bs
    exact ⟨fun file hf => (h u).whole file (hf ▸ hmay), (h u).held o hmay⟩

end

/-- After a crash a listing succeeds. It has of each table what the last completed call
left, or what the call that was interrupted was about to leave. -/
def Recovers (store : SidecarStore) (s : CrashState) (reached : List Bool) (bytes : Uuid → Nat)
    (lost : Bool) : Prop :=
  ∃ intents, store.listFiles (s.crash reached bytes lost) = .ok intents ∧
    ∀ u, ∃ held, (held = s.completed u ∨ (s.calls u).target = some held) ∧
      ∀ p, p ∈ intents ∧ p.tableUuid = u ↔ ∃ intent ∈ held, intent.flush = p

/-- An intent is stored for its table: another one is refused, the same one is accepted,
and both leave everything as it is. -/
def Holds (store : SidecarStore) (s : CrashState) (stored intent : StorableIntent) : Prop :=
  s.next store (.persist intent) = some s ∧
    ((stored.flush == intent.flush) = false → ∃ error, s.checkPersist store intent = .error error) ∧
    (stored = intent → s.checkPersist store intent = .ok true)

lemma readFile_eq_ok {file : SidecarFile}
    (h : file = store.whole file.intent ∧ store.Reads u file.intent) :
    store.readFile u file = .ok file.intent.flush := by
  have hwr : file.written = store.length file.intent := by rw [h.1]; rfl
  rw [readFile, if_pos hwr]
  exact h.2

lemma recovers (h : ∀ u, s.TableInv store u) (ha : s.Anchored) (reached : List Bool)
    (bs : Uuid → Nat) (lost : Bool) : s.Recovers store reached bs lost := by
  have hr : ∀ file ∈ (s.crash reached bs lost).entries,
      store.readFile file.1 file.2 = .ok file.2.intent.flush ∧
        file.2.intent.flush.tableUuid = file.1 := by
    intro file hf
    have hwho := (crash_spec h ha reached bs lost rfl).1 file.2
      ((OrdMap.find?_eq_some_iff _ _ _).mpr hf)
    exact ⟨readFile_eq_ok hwho, (readOne_eq_ok_iff.mp hwho.2).2.2.2.2⟩
  obtain ⟨its, hl⟩ := exists_mapM_eq_ok fun file hf => ⟨_, (hr file hf).1⟩
  refine ⟨its, hl, fun u => ⟨_, (crash_spec h ha reached bs lost rfl).2, fun p => ?_⟩⟩
  rw [(mem_of_mapM_eq_ok hl).2]
  constructor
  · rintro ⟨⟨file, hf, hp⟩, rfl⟩
    obtain ⟨hok, hu⟩ := hr file hf
    obtain rfl := Except.ok.inj (hok.symm.trans hp)
    refine ⟨file.2.intent, Option.mem_map.mpr ⟨file.2, ?_, rfl⟩, rfl⟩
    rw [hu]
    exact (OrdMap.find?_eq_some_iff _ _ _).mpr hf
  · rintro ⟨_, hint, rfl⟩
    obtain ⟨file, hf, rfl⟩ := Option.mem_map.mp hint
    have hmem := (OrdMap.find?_eq_some_iff _ _ _).mp hf
    exact ⟨⟨_, hmem, (hr _ hmem).1⟩, (hr _ hmem).2⟩

lemma holds (h : ∀ u, s.TableInv store u) {intent stored : StorableIntent}
    (hidle : s.calls intent.flush.tableUuid = .idle)
    (hstored : (s.dir.visible.find? intent.flush.tableUuid).map (·.intent) = some stored) :
    s.Holds store stored intent := by
  obtain ⟨file, hfile, rfl⟩ := Option.map_eq_some_iff.mp hstored
  have hwhole := (h _).whole file (hfile ▸ DirEntries.mayHold_visible)
  cases hvalid : PreparedStore.validate store.config intent.flush with
  | error error =>
    have hcheck : s.checkPersist store intent = .error error := by
      rw [checkPersist]
      simp only [hvalid]
    refine ⟨by rw [next, hidle, hcheck], fun _ => ⟨error, hcheck⟩, ?_⟩
    rintro rfl
    rw [(readOne_eq_ok_iff.mp hwhole.2).2.2.2.1] at hvalid
    cases hvalid
  | ok _ =>
    have hcheck : s.checkPersist store intent = if file.intent.flush == intent.flush then .ok true
        else .error (walError ("different prepared intent already exists for table " ++
          s!"{intent.flush.table} ({store.config.uuidToString intent.flush.tableUuid})")) := by
      rw [checkPersist]
      simp only [hvalid, hfile, readFile_eq_ok hwhole]
    refine ⟨?_, fun hne => ⟨_, by rw [hcheck, hne]; rfl⟩, ?_⟩
    · rw [next, hidle, hcheck]
      cases file.intent.flush == intent.flush <;> rfl
    · rintro rfl
      have hk := (parse_payload_iff file.intent.inRange).mp (readOne_eq_ok_iff.mp hwhole.2).2.2.1
      rw [hcheck, PreparedFlush.beq_self_of_kept hk]
      rfl

end CrashState

end SidecarStore

namespace SidecarRun

def store : SidecarStore where
  expectedWriter := ⟨Uuid.ofNat 1⟩
  maxFiles := 10
  maxBytes := 4096
  text := JsonText.tree
  numbers := ⟨FloatTexts.ofBits _, FloatTexts.ofBits _⟩

def file : DataFile where
  content := .data
  path := ⟨.s3, some "lake", "sales/events/data/00000000-0000-0000-0000-000000000001/" ++
    "00000000-0000-0000-0000-000000000002-f0000.parquet"⟩
  format := .parquet
  partitionSpecId := 0
  sortOrderId := some 0
  schemaId := 0
  partitionValues := OrdMap.empty
  recordCount := 1
  fileSizeBytes := 512
  columnSizes := OrdMap.empty
  valueCounts := OrdMap.empty
  nullValueCounts := OrdMap.empty
  nanValueCounts := OrdMap.empty
  lowerBounds := OrdMap.empty
  upperBounds := OrdMap.empty
  splitOffsets := []
  equalityIds := []
  keyMetadata := none

def tableUuid : Uuid := Uuid.ofNat 3

def flush : PreparedFlush DataFile :=
  .new ⟨"sales", "events"⟩ tableUuid ⟨Uuid.ofNat 1⟩ ⟨1⟩ ⟨Uuid.ofNat 2⟩ ⟨1, 1⟩ 1 0 [file] none

lemma inRange_flush : flush.InRange := by
  constructor <;> simp [flush, PreparedFlush.new, writeProtocolVersion, MachineInt.u64Max]

def intent : StorableIntent := ⟨flush, inRange_flush⟩

/-- The changes of the directory that are not synced, and whether its name is safe. -/
def observe (s : SidecarStore.CrashState) : Nat × Option Bool :=
  (s.dir.unsynced.length, s.directory)

end SidecarRun

end TeoDB.Storage.Wal

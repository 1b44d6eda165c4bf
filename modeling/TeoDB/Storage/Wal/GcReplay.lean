import TeoDB.Storage.Wal.Replay

/-!
# Collection does not change what replay sees

A pass over a log that nobody writes can stop after any of its deletions, and any
of them can fail. Replay of the segments that are left yields the records, or the
error, that it yields for all of them.

## Implementation notes

A segment that the pass could not read may be readable again when replay runs.
`WalDir.recovered` clears the errors of some segments, and the result holds for
every choice of them.
-/

namespace TeoDB.Storage.Wal

open TeoDB.Core Lib Lib.TombstoneLog Lib.MachineInt

variable {α : Type}

namespace WalDir

/-- The directory after some deletions. -/
def without (files : WalDir) (deleted : List Nat) : WalDir :=
  ⟨files.entries.filter fun file => file.1 ∉ deleted, files.sorted.filter _⟩

@[simp] lemma without_entries (fs : WalDir) (del : List Nat) :
    (fs.without del).entries = fs.entries.filter fun file => file.1 ∉ del := rfl

/-- Clear the read error of a segment. -/
def recover (recovers : Nat → Bool) (file : Nat × SegmentFile) : Nat × SegmentFile :=
  (file.1, if recovers file.1 then { file.2 with unreadable := none } else file.2)

/-- The directory after some read errors have gone away. -/
def recovered (files : WalDir) (recovers : Nat → Bool) : WalDir :=
  ⟨files.entries.map (recover recovers), List.pairwise_map.mpr files.sorted⟩

@[simp] lemma recover_bytes (recovers : Nat → Bool) (file : Nat × SegmentFile) :
    (recover recovers file).2.bytes = file.2.bytes := by
  unfold recover
  split_ifs <;> rfl

lemma recover_readable (recovers : Nat → Bool) {file : Nat × SegmentFile}
    (h : file.2.unreadable = none) : (recover recovers file).2.unreadable = none := by
  unfold recover
  split_ifs
  · rfl
  · exact h

end WalDir

/-- A log between writes: the open segment, if there is one, is the last. -/
structure QuietLog where
  files : WalDir
  current : Option Nat
  seqBound : ∀ seq ∈ files.keys, seq ≤ u64Max
  currentLast : ∀ seq ∈ files.keys, ∀ c, current = some c → seq ≤ c

namespace Gc

variable {codec : FrameCodec α}

/-- Whether the pass can read a segment. -/
def readable (file : Nat × SegmentFile) : Bool := file.2.unreadable.isNone

/-- The records of the segment with a sequence number. -/
def recordsAt (codec : FrameCodec α) (files : WalDir) (seq : Nat) : List (WalRecord α) :=
  match files.find? seq with
  | none => []
  | some file => (segmentFrames codec file.bytes).1.map Prod.snd

def corruptAt (codec : FrameCodec α) (files : WalDir) (seq : Nat) : Bool :=
  match files.find? seq with
  | none => false
  | some file => (segmentFrames codec file.bytes).2.isCorrupt

lemma find?_of_mem {fs : WalDir} {file : Nat × SegmentFile} (h : file ∈ fs.entries) :
    fs.find? file.1 = some file.2 := (fs.find?_eq_some_iff _ _).mpr h

/-- The pass scans the candidates before the first unreadable one. -/
theorem scanReadablePrefix_eq {fs : WalDir} {candidates : List (Nat × SegmentFile)}
    (h : ∀ file ∈ candidates, file ∈ fs.entries) :
    scanReadablePrefix codec candidates = scansOf (recordsAt codec fs)
      (corruptAt codec fs) ((candidates.takeWhile readable).map Prod.fst) := by
  induction candidates with
  | nil => rfl
  | cons file rest ih =>
    have hfind := find?_of_mem (h file List.mem_cons_self)
    have hrest := ih fun f hf => h f (List.mem_cons_of_mem _ hf)
    cases hr : file.2.unreadable with
    | some error => simp [scanReadablePrefix, scanFile, readable, hr, scansOf]
    | none =>
      simp [scanReadablePrefix, scanFile, readable, hr, scanSegment_eq, hrest, scansOf,
        recordsAt, corruptAt, hfind]

/-- The segments that a pass scans. -/
def scanned (log : QuietLog) : List (Nat × SegmentFile) :=
  (candidateSegments log.files log.current).takeWhile readable

/-- The candidates are a beginning of the listing, and so are the scanned ones. -/
theorem scanned_isPrefixOf (log : QuietLog) : scanned log <+: log.files.entries := by
  refine (List.takeWhile_prefix _).trans ?_
  have hsrt := log.files.sorted
  have hl := log.currentLast
  unfold candidateSegments
  rw [OrdMap.keys] at hl
  generalize log.files.entries = entries at hsrt hl ⊢
  induction entries with
  | nil => exact List.prefix_rfl
  | cons file rest ih =>
    obtain ⟨hfirst, hr⟩ := List.pairwise_cons.mp hsrt
    have ht := ih hr fun seq hseq => hl seq (by simp [hseq])
    by_cases hcur : log.current = some file.1
    · have hnil : rest = [] := by
        cases rest with
        | nil => rfl
        | cons next more =>
          have hle := hl next.1 (by simp) file.1 hcur
          have hlt := hfirst next List.mem_cons_self
          omega
      subst hnil
      simp [hcur]
    · simpa [hcur, List.filter_cons] using ht

lemma collectGarbage_eq (log : QuietLog) (cm : CommittedMap) (rf : Nat → Bool) :
    collectGarbage codec log.files log.current cm rf =
      deleteDeadSegments cm rf [] (markVoidedFrames (scansOf
        (recordsAt codec log.files) (corruptAt codec log.files)
        ((scanned log).map Prod.fst))).1 := by
  have hsub : ∀ file ∈ candidateSegments log.files log.current, file ∈ log.files.entries :=
    fun file hf => (List.mem_filter.mp hf).1
  rw [collectGarbage, scanReadablePrefix_eq hsub, scanned]

/-- What a pass deletes was scanned and has no corrupt frame, and everything unreadable comes after
it. -/
theorem collectGarbage_deleted {log : QuietLog} {cm : CommittedMap} {rf : Nat → Bool} {seq : Nat}
    (h : seq ∈ collectGarbage codec log.files log.current cm rf) :
    ∃ file, (seq, file) ∈ scanned log ∧ file.unreadable = none ∧
      (segmentFrames codec file.bytes).2.isCorrupt = false ∧
      ∀ o ∈ log.files.entries, o.2.unreadable ≠ none → seq < o.1 := by
  rw [collectGarbage_eq] at h
  obtain ⟨seg, hmem, rfl, hcl⟩ := deleteDeadSegments_subset _ _ _ _ seq h
  obtain ⟨seq', hseq', heq⟩ := List.mem_map.mp (mem_markVoidedFrames hmem)
  obtain ⟨rfl, hs⟩ := Prod.mk.inj heq
  obtain ⟨file, hf, hfst⟩ := List.mem_map.mp hseq'
  obtain ⟨tail, hsp⟩ := scanned_isPrefixOf log
  have hen : file ∈ log.files.entries := hsp ▸ List.mem_append_left _ hf
  have hr : file.2.unreadable = none := by
    simpa [readable] using List.mem_takeWhile_imp hf
  have hfound : log.files.find? seg.seq = some file.2 := hfst ▸ find?_of_mem hen
  refine ⟨file.2, by rw [← hfst]; exact hf, hr, ?_, ?_⟩
  · rw [← hs] at hcl
    simpa [corruptAt, hfound] using hcl
  · intro o hot hbad
    rw [← hsp] at hot
    rcases List.mem_append.mp hot with hot | hot
    · exact absurd (by simpa [readable] using List.mem_takeWhile_imp hot) hbad
    · have hsrt := log.files.sorted
      rw [← hsp, List.pairwise_append] at hsrt
      rw [← hfst]
      exact hsrt.2.2 file hf o hot

lemma findSome?_filter {β γ : Type*} {f : β → Option γ} {p : β → Bool} {l : List β}
    (h : ∀ x ∈ l, p x = false → f x = none) : (l.filter p).findSome? f = l.findSome? f := by
  induction l with
  | nil => rfl
  | cons x rest ih =>
    have hr := ih fun y hy => h y (List.mem_cons_of_mem _ hy)
    cases hp : p x with
    | true => simp [hp, hr, List.findSome?_cons]
    | false => simp [hp, hr, h x List.mem_cons_self hp]

lemma segmentFailure_none {mode : WalRecoveryMode} {env : ReplayEnv}
    {seg : Nat × SegmentFile} (hr : seg.2.unreadable = none)
    (hcl : (segmentFrames codec seg.2.bytes).2.isCorrupt = false) :
    Replay.segmentFailure codec mode env seg = none := by
  unfold Replay.segmentFailure
  rw [hr, replayFrames_eq]
  cases hstop : (segmentFrames codec seg.2.bytes).2 with
  | clean => rfl
  | torn off => rfl
  | corrupt off reason => simp [hstop, FrameEnd.isCorrupt] at hcl

lemma recordLog_records {fs : WalDir} {segs : List (Nat × SegmentFile)}
    (h : ∀ file ∈ segs, file ∈ fs.entries) :
    recordLog (Replay.records codec segs) = logOf (recordsAt codec fs) (segs.map Prod.fst) := by
  have hat : ∀ file ∈ segs, recordsAt codec fs file.1 =
      (segmentFrames codec file.2.bytes).1.map Prod.snd := by
    intro file hf
    rw [recordsAt, find?_of_mem (h file hf)]
  rw [logOf, Replay.records, List.flatMap_map]
  congr 1
  exact List.flatMap_congr fun file hf => (hat file hf).symm

/-- The live records are the same after any number of deletions. -/
theorem liveRecords_without (log : QuietLog) (cm : CommittedMap) (rf : Nat → Bool) (n : Nat) :
    Replay.liveRecords codec cm (log.files.without
        ((collectGarbage codec log.files log.current cm rf).take n)).entries =
      Replay.liveRecords codec cm log.files.entries := by
  set del := (collectGarbage codec log.files log.current cm rf).take n with hdel
  obtain ⟨tail, hsp⟩ := scanned_isPrefixOf log
  have hen : ∀ file ∈ scanned log, file ∈ log.files.entries :=
    fun file hf => hsp ▸ List.mem_append_left _ hf
  have hsrt := log.files.sorted
  rw [← hsp, List.pairwise_append] at hsrt
  have ht : tail.filter (fun file => file.1 ∉ del) = tail := by
    apply List.filter_eq_self.mpr
    intro file hf
    rw [decide_eq_true_eq]
    intro hmem
    obtain ⟨found, hfound, _⟩ := collectGarbage_deleted (List.mem_of_mem_take hmem)
    exact absurd (hsrt.2.2 _ hfound file hf) (lt_irrefl _)
  have hnd : ((scanned log).map Prod.fst).Nodup := by
    rw [List.Nodup, List.pairwise_map]
    exact hsrt.1.imp fun h => h.ne
  have hswe : live (settled cm) (logOf (recordsAt codec log.files)
      (((scanned log).map Prod.fst).filter fun seq => seq ∉ del) ++
        recordLog (Replay.records codec tail)) =
      live (settled cm) (logOf (recordsAt codec log.files) ((scanned log).map Prod.fst) ++
        recordLog (Replay.records codec tail)) := by
    rw [hdel, collectGarbage_eq]
    exact sweep_live (recordsAt codec log.files) (corruptAt codec log.files) rf
      (recordLog (Replay.records codec tail)) hnd (fun _ _ h => absurd h List.not_mem_nil) n
  have hfil : (log.files.without del).entries =
      (scanned log).filter (fun file => file.1 ∉ del) ++ tail := by
    rw [WalDir.without_entries, ← hsp, List.filter_append, ht]
  have hlog : ∀ segs, Replay.records codec (segs ++ tail) =
      Replay.records codec segs ++ Replay.records codec tail := by
    intro segs
    simp [Replay.records]
  rw [Replay.liveRecords, Replay.liveRecords, hfil, ← hsp, hlog, hlog, recordLog_append,
    recordLog_append, recordLog_records fun file hf => hen file (List.mem_filter.mp hf).1,
    recordLog_records hen]
  congr 1
  rw [List.filter_map] at hswe
  exact hswe

/-- Collection is invisible to replay: after any part of a pass replay yields the same records or
the same error, and no segment is deleted that is unreadable, corrupt or after an unreadable one. -/
theorem replay_after_collectGarbage (codec : FrameCodec α) (log : QuietLog)
    (committed : CommittedMap) (mode : WalRecoveryMode) (env : ReplayEnv)
    (removeFails : Nat → Bool) (count : Nat) (recovers : Nat → Bool) :
    let deleted := (collectGarbage codec log.files log.current committed removeFails).take count
    Replay.replay codec committed mode env ((log.files.without deleted).recovered recovers) =
        Replay.replay codec committed mode env (log.files.recovered recovers) ∧
      ∀ seq ∈ deleted, ∃ file, (seq, file) ∈ log.files.entries ∧ file.unreadable = none ∧
        (segmentFrames codec file.bytes).2.isCorrupt = false ∧
        ∀ other ∈ log.files.entries, other.2.unreadable ≠ none → seq < other.1 := by
  intro deleted
  have hg : ∀ seq ∈ deleted, ∃ file, (seq, file) ∈ log.files.entries ∧
      file.unreadable = none ∧ (segmentFrames codec file.bytes).2.isCorrupt = false ∧
      ∀ other ∈ log.files.entries, other.2.unreadable ≠ none → seq < other.1 := by
    intro seq hseq
    obtain ⟨file, hf, hrest⟩ := collectGarbage_deleted (List.mem_of_mem_take hseq)
    exact ⟨file, (scanned_isPrefixOf log).subset hf, hrest⟩
  refine ⟨?_, hg⟩
  have hpaths : segmentPaths (log.files.recovered recovers) =
      log.files.entries.map (WalDir.recover recovers) := by
    apply segmentPaths_eq
    intro seq hseq
    apply log.seqBound
    simpa [OrdMap.keys, WalDir.recovered, WalDir.recover] using hseq
  have hpaths' : segmentPaths ((log.files.without deleted).recovered recovers) =
      (log.files.without deleted).entries.map (WalDir.recover recovers) := by
    apply segmentPaths_eq
    intro seq hseq
    apply log.seqBound
    obtain ⟨file, hf, rfl⟩ := List.mem_map.mp hseq
    obtain ⟨original, hori, rfl⟩ := List.mem_map.mp hf
    exact List.mem_map.mpr ⟨original, (List.mem_filter.mp hori).1, rfl⟩
  have hfai : ((log.files.without deleted).entries.map (WalDir.recover recovers)).findSome?
      (Replay.segmentFailure codec mode env) =
      (log.files.entries.map (WalDir.recover recovers)).findSome?
        (Replay.segmentFailure codec mode env) := by
    rw [List.findSome?_map, List.findSome?_map]
    apply findSome?_filter
    intro file hf hdel
    obtain ⟨fd, hfound, hr, hcl, _⟩ := hg file.1 (by simpa using hdel)
    have hs : fd = file.2 :=
      Option.some.inj ((find?_of_mem hfound).symm.trans (find?_of_mem hf))
    subst hs
    apply segmentFailure_none (WalDir.recover_readable recovers hr)
    rw [WalDir.recover_bytes]
    exact hcl
  have hl : ∀ segs, Replay.liveRecords codec committed
      (segs.map (WalDir.recover recovers)) = Replay.liveRecords codec committed segs := by
    intro segs
    simp only [Replay.liveRecords, Replay.records, List.flatMap_map, WalDir.recover_bytes]
  rw [Replay.replay_eq, Replay.replay_eq, hpaths, hpaths', hfai, hl, hl, liveRecords_without]

section

/-- One row under generation one, ingested into an incarnation of a table. -/
def plainAppend : WalRecord Nat :=
  ⟨⟨writeProtocolVersion, some (.ofNat 7), .ofNat 1, ⟨"ns", "t"⟩, 0, 1, 0, none, 1, 16, .append⟩,
    ⟨[⟨5, 10⟩], 1, 16⟩⟩

def plainTombstone : WalRecord Nat := WalRecord.dropTombstone ⟨"ns", "t"⟩ (.ofNat 2) 0

/-- A codec that knows one record of each kind and has no checksum. -/
def plainCodec : FrameCodec Nat where
  crc32 _ := 0
  headerFromJson bytes :=
    if bytes = [1] then .ok plainAppend.header
    else if bytes = [2] then .ok plainTombstone.header
    else .error "unknown"
  batchFromIpc _ := .ok plainAppend.batch
  errorText _ := ""

/-- A frame of `plainCodec`, with its padding. -/
def plainFrame (header : UInt8) : List UInt8 :=
  [2, 0, 0, 0, 0, 0, 0, 0, header, 10, 0, 0, 0, 0, 0, 0]

/-- One append of a table, and its tombstone in the segment after it. -/
def droppedLog : QuietLog where
  files := ⟨[(0, ⟨plainFrame 1, none⟩), (1, ⟨plainFrame 2, none⟩)], by decide⟩
  current := none
  seqBound := by decide
  currentLast := by simp

/-- A dropped table goes in two deletions. A pass cut short between them leaves
nothing to replay either. -/
theorem replay_after_collectGarbage_droppedTable :
    let deleted := collectGarbage plainCodec droppedLog.files none (fun _ => none) fun _ => false
    deleted = [0, 1] ∧ Replay.replay plainCodec (fun _ => none) .fail ⟨"wal", fun _ => none⟩
          ((droppedLog.files.without (deleted.take 1)).recovered fun _ => false) =
        Replay.replay plainCodec (fun _ => none) .fail ⟨"wal", fun _ => none⟩
          (droppedLog.files.recovered fun _ => false) :=
  ⟨by decide, (replay_after_collectGarbage plainCodec droppedLog (fun _ => none) .fail
    ⟨"wal", fun _ => none⟩ (fun _ => false) 1 fun _ => false).1⟩

end

end Gc

end TeoDB.Storage.Wal

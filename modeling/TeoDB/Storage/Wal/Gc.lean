import TeoDB.Lib.TombstoneLog
import TeoDB.Storage.Wal.Segment

/-!
# Collection of dead log segments

A pass scans the closed segments in sequence order up to the first unreadable
one, marks the appends that a later tombstone voids, and deletes a segment when
every frame in it is dead. A tombstone is dead once no retained segment before
it holds an append of its table.

## Implementation notes

Directory entries are keyed by segment sequence number. Whether a deletion fails is decided by the
environment and given as a predicate on sequence numbers.
-/

namespace TeoDB.Storage.Wal

open TeoDB.Core Lib Lib.TombstoneLog

variable {α : Type}

/-- A segment file: its bytes, and the error that reading it gives, if any. -/
structure SegmentFile where
  bytes : List UInt8
  unreadable : Option String
deriving DecidableEq

abbrev WalDir := OrdMap Nat SegmentFile

/-- Committed generation by table incarnation. -/
abbrev CommittedMap := WalTableKey → Option Nat

/-- Whether the committed map covers a generation of a table. -/
def covers (committed : CommittedMap) (key : WalTableKey) (generation : Nat) : Bool :=
  match committed key with
  | none => false
  | some committedGeneration => generation ≤ committedGeneration

structure ScannedSegment where
  seq : Nat
  scan : SegmentScan
  voided : List Bool
deriving DecidableEq

namespace Gc

/-- All segments but the one that is open. -/
def candidateSegments {ν : Type} (files : OrdMap Nat ν) (currentSeq : Option Nat) :
    List (Nat × ν) :=
  files.entries.filter fun file => currentSeq ≠ some file.1

def scanFile (codec : FrameCodec α) (seq : Nat) (file : SegmentFile) : TeoDBResult SegmentScan :=
  match file.unreadable with
  | some error => .error (walError s!"read segment {seq}: {error}")
  | none => scanSegment codec file.bytes

/-- Scan in order, stopping at the first segment that cannot be read. -/
def scanReadablePrefix (codec : FrameCodec α) : List (Nat × SegmentFile) → List (Nat × SegmentScan)
  | [] => []
  | (seq, file) :: rest =>
    match scanFile codec seq file with
    | .ok scan => (seq, scan) :: scanReadablePrefix codec rest
    | .error _ => []

/-- Mark the frames of one segment from the last to the first, given the tables
with a tombstone after it. -/
def markFrames (tombstoned : List TableIdent) : List ScanFrame → List Bool × List TableIdent
  | [] => ([], tombstoned)
  | frame :: rest =>
    let (flags, tombstoned) := markFrames tombstoned rest
    match frame with
    | .append key _ => (tombstoned.contains key.ident :: flags, tombstoned)
    | .dropTable table => (false :: flags, table :: tombstoned)

/-- Mark the segments from the last to the first. -/
def markVoidedFrames : List (Nat × SegmentScan) → List ScannedSegment × List TableIdent
  | [] => ([], [])
  | (seq, scan) :: rest =>
    let (segments, tombstoned) := markVoidedFrames rest
    let (flags, tombstoned) := markFrames tombstoned scan.frames
    (⟨seq, scan, flags⟩ :: segments, tombstoned)

/-- Whether one frame does not keep its segment alive. -/
def frameDead (committed : CommittedMap) (retainedTables : List TableIdent) :
    ScanFrame × Bool → Bool
  | (.append key generation, voided) => voided || covers committed key generation
  | (.dropTable table, _) => !retainedTables.contains table

def isDeletable (segment : ScannedSegment) (committed : CommittedMap)
    (retainedTables : List TableIdent) : Bool :=
  !segment.scan.corrupt && !segment.scan.frames.isEmpty &&
    (segment.scan.frames.zip segment.voided).all (frameDead committed retainedTables)

def appendTable : ScanFrame → Option TableIdent
  | .append key _ => some key.ident
  | .dropTable _ => none

def retainSegmentTables (segment : ScannedSegment) (retainedTables : List TableIdent) :
    List TableIdent :=
  segment.scan.frames.filterMap appendTable ++ retainedTables

/-- Delete dead segments in append order. The result lists the deletions that
succeed, in the order they are made. -/
def deleteDeadSegments (committed : CommittedMap) (removeFails : Nat → Bool) :
    List TableIdent → List ScannedSegment → List Nat
  | _, [] => []
  | retained, segment :: rest =>
    if isDeletable segment committed retained && !removeFails segment.seq then
      segment.seq :: deleteDeadSegments committed removeFails retained rest
    else
      deleteDeadSegments committed removeFails (retainSegmentTables segment retained) rest

/-- One pass over a directory: the deletions it makes, in order. -/
def collectGarbage (codec : FrameCodec α) (files : WalDir) (currentSeq : Option Nat)
    (committed : CommittedMap) (removeFails : Nat → Bool) : List Nat :=
  let scans := scanReadablePrefix codec (candidateSegments files currentSeq)
  deleteDeadSegments committed removeFails [] (markVoidedFrames scans).1

section

/-- The log entry that a record stands for: tombstones void by table name. -/
def logEntry (record : WalRecord α) : Entry TableIdent (WalRecord α) :=
  match record.header.op with
  | .append => .record record.header.table record
  | .dropTable => .tombstone record.header.table

/-- The log of a stretch of records. -/
def recordLog (records : List (WalRecord α)) : List (Entry TableIdent (WalRecord α)) :=
  records.map logEntry

/-- Whether a record is committed already. -/
def settled (committed : CommittedMap) (_ : TableIdent) (record : WalRecord α) : Bool :=
  covers committed ⟨record.header.tableUuid.getD .nil, record.header.table⟩
    record.header.generation

@[simp] lemma recordLog_append (a b : List (WalRecord α)) :
    recordLog (a ++ b) = recordLog a ++ recordLog b := by
  simp [recordLog]

lemma record_mem_recordLog {rs : List (WalRecord α)} {tbl : TableIdent}
    {rc : WalRecord α} (h : Entry.record tbl rc ∈ recordLog rs) :
    rc ∈ rs ∧ rc.header.op = .append ∧ rc.header.table = tbl := by
  obtain ⟨r, hr, he⟩ := List.mem_map.mp h
  cases hop : r.header.op with
  | dropTable => simp [logEntry, hop] at he
  | append =>
    obtain ⟨ht, rfl⟩ : r.header.table = tbl ∧ r = rc := by simpa [logEntry, hop] using he
    exact ⟨hr, hop, ht⟩

variable {cm : CommittedMap} {later : List (Entry TableIdent (WalRecord α))}

lemma markFrames_tombstoned {tombstoned : List TableIdent} (rs : List (WalRecord α))
    (ht : ∀ t, tombstoned.contains t = buried later t) (t : TableIdent) :
    (markFrames tombstoned (rs.map toScanFrame)).2.contains t =
      buried (recordLog rs ++ later) t := by
  induction rs with
  | nil => exact ht t
  | cons rc rest ih =>
    cases hop : rc.header.op with
    | append => simpa [markFrames, toScanFrame, recordLog, logEntry, hop] using ih
    | dropTable =>
      have hc : decide (t = rc.header.table) = decide (rc.header.table = t) :=
        decide_eq_decide.mpr eq_comm
      simpa [markFrames, toScanFrame, recordLog, logEntry, hop, hc] using
        congrArg (decide (rc.header.table = t) || ·) ih

/-- Nothing in a segment of dead frames is live given the later tombstones, and none of its
tombstones belongs to a retained table. -/
theorem frameDead_all {tombstoned ret : List TableIdent} {rs : List (WalRecord α)}
    (ht : ∀ t, tombstoned.contains t = buried later t) (hall : ((rs.map toScanFrame).zip
      (markFrames tombstoned (rs.map toScanFrame)).1).all (frameDead cm ret)) :
    (∀ r ∈ live (settled cm) (recordLog rs), buried later r.1 = true) ∧
      ∀ t, buried (recordLog rs) t = true → t ∉ ret := by
  induction rs with
  | nil => simp [recordLog, live]
  | cons rc rest ih =>
    cases hop : rc.header.op with
    | append =>
      simp only [List.map_cons, toScanFrame, hop, markFrames, List.zip_cons_cons,
        List.all_cons, Bool.and_eq_true, frameDead, Bool.or_eq_true] at hall
      obtain ⟨hd, hr⟩ := hall
      obtain ⟨hl, hret⟩ := ih hr
      rw [markFrames_tombstoned rest ht] at hd
      simp only [recordLog, List.map_cons, logEntry, hop, buried_record]
      refine ⟨live_dead_cons hd.symm hl, hret⟩
    | dropTable =>
      simp only [List.map_cons, toScanFrame, hop, markFrames, List.zip_cons_cons,
        List.all_cons, Bool.and_eq_true, frameDead, Bool.not_eq_true'] at hall
      obtain ⟨hd, hr⟩ := hall
      obtain ⟨hl, hret⟩ := ih hr
      simp only [recordLog, List.map_cons, logEntry, hop, live]
      refine ⟨hl, ?_⟩
      intro t hb
      rw [buried_tombstone, Bool.or_eq_true, decide_eq_true_eq] at hb
      rcases hb with rfl | hb
      · simpa using hd
      · exact hret t hb

/-- The scans of segments whose records are known. -/
def scansOf (records : Nat → List (WalRecord α)) (corrupt : Nat → Bool) (seqs : List Nat) :
    List (Nat × SegmentScan) :=
  seqs.map fun seq => (seq, ⟨(records seq).map toScanFrame, corrupt seq⟩)

/-- The joint log of several segments. -/
def logOf (records : Nat → List (WalRecord α)) (seqs : List Nat) :
    List (Entry TableIdent (WalRecord α)) :=
  recordLog (seqs.flatMap records)

lemma markVoidedFrames_tombstoned (rs : Nat → List (WalRecord α)) (corrupt : Nat → Bool)
    (seqs : List Nat) (t : TableIdent) :
    (markVoidedFrames (scansOf rs corrupt seqs)).2.contains t = buried (logOf rs seqs) t := by
  induction seqs generalizing t with
  | nil => rfl
  | cons seq rest ih =>
    simp only [scansOf, List.map_cons, markVoidedFrames, logOf, List.flatMap_cons, recordLog_append]
    exact markFrames_tombstoned (rs seq) ih t

lemma deleteDeadSegments_subset (cm : CommittedMap) (rf : Nat → Bool)
    (ret : List TableIdent) (segs : List ScannedSegment) :
    ∀ seq ∈ deleteDeadSegments cm rf ret segs,
      ∃ seg ∈ segs, seg.seq = seq ∧ seg.scan.corrupt = false := by
  induction segs generalizing ret with
  | nil => simp [deleteDeadSegments]
  | cons seg rest ih =>
    intro seq hseq
    rw [deleteDeadSegments] at hseq
    split_ifs at hseq with hdel
    · rcases List.mem_cons.mp hseq with rfl | hseq
      · simp only [isDeletable, Bool.and_eq_true, Bool.not_eq_true'] at hdel
        exact ⟨seg, List.mem_cons_self, rfl, hdel.1.1.1⟩
      · obtain ⟨fd, hmem, heq⟩ := ih ret seq hseq
        exact ⟨fd, List.mem_cons_of_mem _ hmem, heq⟩
    · obtain ⟨fd, hmem, heq⟩ := ih _ seq hseq
      exact ⟨fd, List.mem_cons_of_mem _ hmem, heq⟩

lemma mem_markVoidedFrames {scans : List (Nat × SegmentScan)} {seg : ScannedSegment}
    (h : seg ∈ (markVoidedFrames scans).1) : (seg.seq, seg.scan) ∈ scans := by
  induction scans with
  | nil => simp [markVoidedFrames] at h
  | cons scan rest ih =>
    rcases List.mem_cons.mp h with rfl | h
    · exact List.mem_cons_self
    · exact List.mem_cons_of_mem _ (ih h)

lemma retainSegmentTables_mem (seg : ScannedSegment) {ret : List TableIdent}
    {kept : List (Entry TableIdent (WalRecord α))} {rs : List (WalRecord α)}
    (hfrs : seg.scan.frames = rs.map toScanFrame) (hk : ∀ t r, Entry.record t r ∈ kept → t ∈ ret) :
    ∀ t r, Entry.record t r ∈ kept ++ recordLog rs → t ∈ retainSegmentTables seg ret := by
  intro t r hr
  rw [retainSegmentTables, List.mem_append]
  rcases List.mem_append.mp hr with hr | hr
  · exact Or.inr (hk t r hr)
  · obtain ⟨hmem, hop, rfl⟩ := record_mem_recordLog hr
    refine Or.inl (List.mem_filterMap.mpr ⟨toScanFrame r, ?_, ?_⟩)
    · rw [hfrs]
      exact List.mem_map_of_mem hmem
    · simp [toScanFrame, hop, appendTable]

/-- Any part of a pass leaves what is live. `kept` is the log before the segments still to be
processed, `tail` that of those not scanned. -/
theorem sweep_live (rs : Nat → List (WalRecord α)) (corrupt : Nat → Bool)
    (rf : Nat → Bool) (tail : List (Entry TableIdent (WalRecord α)))
    {seqs : List Nat} (hnd : seqs.Nodup) {kept : List (Entry TableIdent (WalRecord α))}
    {ret : List TableIdent} (hk : ∀ t r, Entry.record t r ∈ kept → t ∈ ret) (n : Nat) :
    live (settled cm) (kept ++ logOf rs (seqs.filter fun seq =>
      seq ∉ (deleteDeadSegments cm rf ret
        (markVoidedFrames (scansOf rs corrupt seqs)).1).take n) ++ tail) =
    live (settled cm) (kept ++ logOf rs seqs ++ tail) := by
  induction seqs generalizing kept ret n with
  | nil => simp
  | cons seq rest ih =>
    obtain ⟨hfr, hre⟩ := List.nodup_cons.mp hnd
    simp only [scansOf, List.map_cons, markVoidedFrames, deleteDeadSegments]
    rw [← scansOf]
    generalize hflags : markFrames (markVoidedFrames (scansOf rs corrupt rest)).2
      ((rs seq).map toScanFrame) = flags
    have hlog : logOf rs (seq :: rest) = recordLog (rs seq) ++ logOf rs rest := by
      simp [logOf]
    have hot : ∀ ret', ∀ x ∈ deleteDeadSegments cm rf ret'
        (markVoidedFrames (scansOf rs corrupt rest)).1, x ∈ rest := by
      intro ret' x hx
      obtain ⟨seg, hmem, rfl, _⟩ := deleteDeadSegments_subset _ _ _ _ x hx
      obtain ⟨y, hy, heq⟩ := List.mem_map.mp (mem_markVoidedFrames hmem)
      have hseq : y = seg.seq := congrArg Prod.fst heq
      exact hseq ▸ hy
    split_ifs with hdel
    · cases n with
      | zero => simp
      | succ n =>
        simp only [Bool.and_eq_true, isDeletable] at hdel
        obtain ⟨hd, hv⟩ := frameDead_all
          (markVoidedFrames_tombstoned rs corrupt rest) (hflags ▸ hdel.1.2)
        have hs : (seq :: rest).filter (fun x => x ∉ (seq :: deleteDeadSegments cm rf ret
              (markVoidedFrames (scansOf rs corrupt rest)).1).take (n + 1)) =
            rest.filter (fun x => x ∉ (deleteDeadSegments cm rf ret
              (markVoidedFrames (scansOf rs corrupt rest)).1).take n) := by
          simp only [List.take_succ_cons, List.filter_cons, List.mem_cons, true_or,
            not_true_eq_false, decide_false, Bool.false_eq_true, if_false]
          apply List.filter_congr
          intro x hx
          have hne : x ≠ seq := fun h => hfr (h ▸ hx)
          simp [hne]
        rw [hs, ih hre hk n, hlog, List.append_assoc kept, List.append_assoc kept,
          List.append_assoc (recordLog _), ← List.append_assoc kept (recordLog _)]
        apply (live_remove _ _).symm
        · intro r hr
          rw [buried_append, hd r hr, Bool.true_or]
        · intro t r hr
          apply Bool.eq_false_iff.mpr
          intro hb
          exact hv t hb (hk t r hr)
    · have hkeep := retainSegmentTables_mem
        ⟨seq, ⟨(rs seq).map toScanFrame, corrupt seq⟩, flags.1⟩ rfl hk
      have hfil := ih hre hkeep n
      rw [List.filter_cons_of_pos]
      · simpa only [hlog, logOf, List.flatMap_cons, recordLog_append, List.append_assoc] using hfil
      · simp only [decide_not, Bool.not_eq_true', decide_eq_false_iff_not]
        exact fun hmem => hfr (hot _ seq (List.mem_of_mem_take hmem))

/-- What a pass deletes is dead: a record in it that is not settled has a tombstone later in the
scan. -/
theorem deleteDeadSegments_dead (rs : Nat → List (WalRecord α)) (corrupt : Nat → Bool)
    (rf : Nat → Bool) {seqs : List Nat} {ret : List TableIdent} {seq : Nat}
    (h : seq ∈ deleteDeadSegments cm rf ret (markVoidedFrames (scansOf rs corrupt seqs)).1) :
    ∃ bef aft, seqs = bef ++ seq :: aft ∧ ∀ r ∈ live (settled cm) (recordLog (rs seq)),
        buried (logOf rs aft) r.1 = true := by
  induction seqs generalizing ret with
  | nil => simp [scansOf, markVoidedFrames, deleteDeadSegments] at h
  | cons first rest ih =>
    simp only [scansOf, List.map_cons, markVoidedFrames, deleteDeadSegments] at h
    rw [← scansOf] at h
    split_ifs at h with hdel
    · rcases List.mem_cons.mp h with rfl | h
      · simp only [Bool.and_eq_true, isDeletable] at hdel
        obtain ⟨hd, _⟩ := frameDead_all (markVoidedFrames_tombstoned rs corrupt rest) hdel.1.2
        exact ⟨[], rest, rfl, hd⟩
      · obtain ⟨bef, aft, rfl, hd⟩ := ih h
        exact ⟨first :: bef, aft, rfl, hd⟩
    · obtain ⟨bef, aft, rfl, hd⟩ := ih h
      exact ⟨first :: bef, aft, rfl, hd⟩

end

end Gc

end TeoDB.Storage.Wal

import TeoDB.Lib.StableSort
import TeoDB.Storage.Wal.Gc

/-!
# Bounded, fail-closed replay

The first pass validates every frame and keeps a small entry for each append that
is not committed. After the pass the entries before the latest tombstone of their
table are dropped and the rest is sorted by generation, batch and position. The
second pass decodes one record for each entry.

The result is one list: the live records of the directory, sorted by generation and batch
(`replay_eq`).

## Implementation notes

The source sorts with an unstable sort under a total order; insertion sort gives the same list.
-/

namespace TeoDB.Storage.Wal

open TeoDB.Core Lib Lib.TombstoneLog Lib.MachineInt

variable {α : Type}

/-- How replay responds to a corrupt segment. -/
inductive WalRecoveryMode where
  | fail
  | salvage
deriving DecidableEq

structure FramePosition where
  segment : Nat
  offset : Nat
deriving DecidableEq

namespace FramePosition

instance : LT FramePosition where
  lt a b := a.segment < b.segment ∨ (a.segment = b.segment ∧ a.offset < b.offset)

instance (a b : FramePosition) : Decidable (a < b) :=
  inferInstanceAs (Decidable (_ ∨ _ ∧ _))

lemma lt_iff {a b : FramePosition} :
    a < b ↔ a.segment < b.segment ∨ (a.segment = b.segment ∧ a.offset < b.offset) := Iff.rfl

lemma lt_asymm {a b : FramePosition} (h : a < b) : ¬ b < a := by
  rw [lt_iff] at h ⊢
  omega

end FramePosition

/-- What the first pass keeps of an append. -/
structure ReplayEntry where
  position : FramePosition
  generation : Nat
  batchId : Uuid
  tableIndex : Nat
deriving DecidableEq

/-- A validated segment: its bytes and the length of its complete beginning. -/
structure SegmentSnapshot where
  seq : Nat
  bytes : List UInt8
  replayLen : Nat
  live : Bool

structure ReplayPlan where
  segments : List SegmentSnapshot
  entries : List ReplayEntry
  tables : List WalTableKey

/-- The file name of a segment: twenty digits and the extension. -/
def segmentName (seq : Nat) : List Char := digits 20
where
  digits : Nat → List Char
    | 0 => ".wal".toList
    | width + 1 => Nat.digitChar (seq / 10 ^ width % 10) :: digits width

/-- Whether one name does not sort after another. -/
def nameLe (a b : Nat × SegmentFile) : Prop := ¬ segmentName b.1 < segmentName a.1

instance : DecidableRel nameLe := fun _ _ =>
  inferInstanceAs (Decidable (¬ _))

def segmentPaths (files : WalDir) : List (Nat × SegmentFile) :=
  files.entries.insertionSort nameLe

section

lemma digitChar_lt {a b : Nat} (hb : b < 10) (h : a < b) : Nat.digitChar a < Nat.digitChar b := by
  revert h
  revert a
  decide +revert

lemma digits_lt {n m : Nat} (w : Nat) (h : n % 10 ^ w < m % 10 ^ w) :
    segmentName.digits n w < segmentName.digits m w := by
  induction w with
  | zero => simp [Nat.mod_one] at h
  | succ w ih =>
    have hsp : ∀ k : Nat, k % 10 ^ (w + 1) = k % 10 ^ w + 10 ^ w * (k / 10 ^ w % 10) := fun k => by
      rw [pow_succ, Nat.mod_mul]
    have hmod : ∀ k : Nat, k % 10 ^ w < 10 ^ w :=
      fun k => Nat.mod_lt _ (Nat.pow_pos (by decide))
    rw [hsp, hsp] at h
    rw [segmentName.digits, segmentName.digits, List.cons_lt_cons_iff]
    rcases Nat.lt_trichotomy (n / 10 ^ w % 10) (m / 10 ^ w % 10) with hlt | heq | hgt
    · exact Or.inl (digitChar_lt (Nat.mod_lt _ (by decide)) hlt)
    · rw [heq] at h ⊢
      exact Or.inr ⟨rfl, ih (by omega)⟩
    · have hs : 10 ^ w * (m / 10 ^ w % 10 + 1) ≤ 10 ^ w * (n / 10 ^ w % 10) :=
        Nat.mul_le_mul_left _ hgt
      have hm := hmod m
      rw [Nat.mul_add_one] at hs
      omega

/-- Names of segments sort as their sequence numbers do. -/
theorem segmentName_lt {a b : Nat} (hb : b ≤ u64Max) (h : a < b) :
    segmentName a < segmentName b := by
  have hmax : u64Max < 10 ^ 20 := by decide
  apply digits_lt
  rwa [Nat.mod_eq_of_lt (by omega), Nat.mod_eq_of_lt (by omega)]

lemma segmentPaths_eq {fs : WalDir} (h : ∀ seq ∈ fs.keys, seq ≤ u64Max) :
    segmentPaths fs = fs.entries := by
  apply List.Pairwise.insertionSort_eq
  apply List.Pairwise.imp_of_mem _ fs.sorted
  intro a b _ hb hab
  exact lt_asymm (segmentName_lt (h b.1 (List.mem_map_of_mem hb)) hab)

end

/-- The surroundings of a replay: the directory and failures to rename. -/
structure ReplayEnv where
  root : String
  renameError : Nat → Option String

namespace Replay

variable (codec : FrameCodec α) (committed : CommittedMap) (mode : WalRecoveryMode)
  (env : ReplayEnv)

def pathText (seq : Nat) : String := s!"{env.root}/{String.ofList (segmentName seq)}"

def corruptError (seq offset : Nat) (reason : String) : TeoDBError :=
  walError (s!"corrupt WAL frame in {pathText env seq} at offset {offset}: {reason}; " ++
    "acknowledged data after this point may be unrecoverable — repair or remove the segment, " ++
    "or set wal.recovery_mode = \"salvage\" to quarantine it and continue")

def snapshotMismatch (path : String) : TeoDBError :=
  walError s!"WAL segment snapshot mismatch between validation and replay: {path}"

/-- State of the first pass. -/
structure PassOne where
  entries : List ReplayEntry
  tables : List WalTableKey
  latestTombstones : TableIdent → Option FramePosition

/-- Intern a table key. -/
def intern (tables : List WalTableKey) (key : WalTableKey) : List WalTableKey × Nat :=
  if key ∈ tables then (tables, tables.idxOf key) else (tables ++ [key], tables.length)

/-- Account for one complete frame. -/
def noteFrame (segment : Nat) (pass : PassOne) (frame : Nat × WalRecord α) :
    TeoDBResult PassOne :=
  let position : FramePosition := ⟨segment, frame.1⟩
  let header := frame.2.header
  match header.op with
  | .dropTable =>
    .ok { pass with
      latestTombstones := fun table =>
        if table = header.table then some position else pass.latestTombstones table }
  | .append =>
    match header.tableKey with
    | .error error => .error error
    | .ok key =>
      if covers committed key header.generation then .ok pass
      else
        let (tables, tableIndex) := intern pass.tables key
        .ok { pass with
          entries := pass.entries ++ [⟨position, header.generation, header.batchId, tableIndex⟩]
          tables := tables }

/-- Validate one segment. -/
def prepareSegment (index : Nat) (pass : PassOne) (seq : Nat) (file : SegmentFile) :
    TeoDBResult (PassOne × SegmentSnapshot) :=
  match file.unreadable with
  | some error => .error (.wal s!"failed to read WAL segment {pathText env seq}" (some error))
  | none =>
    let (frames, stop) := replayFrames codec file.bytes
    match frames.foldlM (noteFrame committed index) pass with
    | .error error => .error error
    | .ok pass =>
      match stop, mode with
      | .corrupt offset reason, .fail => .error (corruptError env seq offset reason)
      | .corrupt offset _, .salvage =>
        match env.renameError seq with
        | some error =>
          .error (walError s!"failed to quarantine corrupt segment: {error}")
        | none => .ok (pass, ⟨seq, file.bytes, offset, false⟩)
      | stop, _ => .ok (pass, ⟨seq, file.bytes, stop.replayLen file.bytes.length, true⟩)

/-- Validate all segments in order. -/
def prepareSegments : Nat → PassOne → List (Nat × SegmentFile) →
    TeoDBResult (PassOne × List SegmentSnapshot)
  | _, pass, [] => .ok (pass, [])
  | index, pass, (seq, file) :: rest =>
    match prepareSegment codec committed mode env index pass seq file with
    | .error error => .error error
    | .ok (pass, snapshot) =>
      match prepareSegments (index + 1) pass rest with
      | .error error => .error error
      | .ok (pass, snapshots) => .ok (pass, snapshot :: snapshots)

/-- Whether an entry comes after the latest tombstone of its table. -/
def outlives (pass : PassOne) (entry : ReplayEntry) : Bool :=
  match pass.tables[entry.tableIndex]? with
  | none => true
  | some key =>
    match pass.latestTombstones key.ident with
    | none => true
    | some tombstone => tombstone < entry.position

/-- The replay order: generation, batch, position. -/
def entryLe (a b : ReplayEntry) : Prop :=
  a.generation < b.generation ∨ (a.generation = b.generation ∧
    (a.batchId < b.batchId ∨ (a.batchId = b.batchId ∧ ¬ b.position < a.position)))

instance : DecidableRel entryLe := fun _ _ =>
  inferInstanceAs (Decidable (_ ∨ _ ∧ (_ ∨ _ ∧ ¬ _)))

def prepare (files : WalDir) : TeoDBResult ReplayPlan :=
  match prepareSegments codec committed mode env 0 ⟨[], [], fun _ => none⟩
      (segmentPaths files) with
  | .error error => .error error
  | .ok (pass, snapshots) =>
    .ok ⟨snapshots, (pass.entries.filter (outlives pass)).insertionSort entryLe, pass.tables⟩

/-- Decode the record of one entry and check it against the plan. -/
def nextRecord (plan : ReplayPlan) (entry : ReplayEntry) : TeoDBResult (WalRecord α) :=
  match plan.segments[entry.position.segment]? with
  | none => .error (snapshotMismatch env.root)
  | some snapshot =>
    match readFrame codec snapshot.bytes entry.position.offset snapshot.replayLen with
    | .incomplete | .corrupt _ => .error (snapshotMismatch (pathText env snapshot.seq))
    | .complete record _ =>
      match plan.tables[entry.tableIndex]? with
      | none => .error (snapshotMismatch (pathText env snapshot.seq))
      | some expectedTable =>
        if record.header.op = .append ∧ record.header.generation = entry.generation ∧
            record.header.batchId = entry.batchId then
          match record.header.tableKey with
          | .error error => .error error
          | .ok key =>
            if key = expectedTable then .ok record
            else .error (snapshotMismatch (pathText env snapshot.seq))
        else .error (snapshotMismatch (pathText env snapshot.seq))

def collect (plan : ReplayPlan) : TeoDBResult (List (WalRecord α)) :=
  plan.entries.mapM (nextRecord codec env plan)

/-- Both passes over a directory that nothing changes in between. -/
def replay (files : WalDir) : TeoDBResult (List (WalRecord α)) :=
  match prepare codec committed mode env files with
  | .error error => .error error
  | .ok plan => collect codec env plan

/-- The key of an append with a valid header. -/
def keyOf (record : WalRecord α) : WalTableKey :=
  ⟨record.header.tableUuid.getD .nil, record.header.table⟩

lemma tableKey_eq {rc : WalRecord α} (hv : rc.header.validate = .ok ())
    (hop : rc.header.op = .append) : rc.header.tableKey = .ok (keyOf rc) := by
  obtain ⟨uuid, hu, hkey⟩ := WalHeader.tableKey_of_append hv hop
  rw [hkey, keyOf, hu, Option.getD_some]

/-- A frame of the directory with its position. -/
abbrev Located (α : Type) := FramePosition × WalRecord α

/-- `noteFrame` on a frame with a valid header. -/
def note (pass : PassOne) (frame : Located α) : PassOne :=
  match frame.2.header.op with
  | .dropTable =>
    { pass with
      latestTombstones := fun table =>
        if table = frame.2.header.table then some frame.1 else pass.latestTombstones table }
  | .append =>
    if covers committed (keyOf frame.2) frame.2.header.generation then pass
    else
      { pass with
        entries := pass.entries ++ [⟨frame.1, frame.2.header.generation,
          frame.2.header.batchId, (intern pass.tables (keyOf frame.2)).2⟩]
        tables := (intern pass.tables (keyOf frame.2)).1 }

variable {codec committed mode env}

lemma noteFrame_eq {fr : Nat × WalRecord α} (hv : fr.2.header.validate = .ok ())
    (seg : Nat) (pass : PassOne) :
    noteFrame committed seg pass fr = .ok (note committed pass (⟨seg, fr.1⟩, fr.2)) := by
  cases hop : fr.2.header.op with
  | dropTable => simp only [noteFrame, note, hop]
  | append =>
    simp only [noteFrame, note, hop, tableKey_eq hv hop]
    split_ifs <;> rfl

/-- The frames of one segment with their positions. -/
def locate (codec : FrameCodec α) (index : Nat) (bytes : List UInt8) : List (Located α) :=
  (replayFrames codec bytes).1.map fun frame => (⟨index, frame.1⟩, frame.2)

/-- The frames of consecutive segments with their positions. -/
def locateAll (codec : FrameCodec α) : Nat → List (Nat × SegmentFile) → List (Located α)
  | _, [] => []
  | index, (_, file) :: rest => locate codec index file.bytes ++ locateAll codec (index + 1) rest

variable {bs : List UInt8}

lemma replayFrames_valid {fr : Nat × WalRecord α} (h : fr ∈ (replayFrames codec bs).1) :
    fr.2.header.validate = .ok () := by
  rw [replayFrames_eq] at h
  exact segmentFrames_valid h

lemma foldlM_noteFrame (committed : CommittedMap) (i : Nat)
    {frs : List (Nat × WalRecord α)} (hv : ∀ fr ∈ frs, fr.2.header.validate = .ok ())
    (pass : PassOne) :
    frs.foldlM (noteFrame committed i) pass =
      .ok ((frs.map fun fr => ((⟨i, fr.1⟩, fr.2) : Located α)).foldl (note committed) pass) := by
  induction frs generalizing pass with
  | nil => rfl
  | cons fr rest ih =>
    rw [List.foldlM_cons, noteFrame_eq (hv fr List.mem_cons_self)]
    exact ih (fun f hf => hv f (List.mem_cons_of_mem _ hf)) _

/-- Why replay refuses a segment. -/
def segmentFailure (codec : FrameCodec α) (mode : WalRecoveryMode) (env : ReplayEnv)
    (segment : Nat × SegmentFile) : Option TeoDBError :=
  match segment.2.unreadable with
  | some error =>
    some (.wal s!"failed to read WAL segment {pathText env segment.1}" (some error))
  | none =>
    match (replayFrames codec segment.2.bytes).2, mode with
    | .corrupt offset reason, .fail => some (corruptError env segment.1 offset reason)
    | .corrupt _ _, .salvage =>
      (env.renameError segment.1).map fun error =>
        walError s!"failed to quarantine corrupt segment: {error}"
    | _, _ => none

def snapshotOf (codec : FrameCodec α) (segment : Nat × SegmentFile) : SegmentSnapshot :=
  let stop := (replayFrames codec segment.2.bytes).2
  ⟨segment.1, segment.2.bytes, stop.replayLen segment.2.bytes.length, !stop.isCorrupt⟩

lemma prepareSegment_eq (i : Nat) (pass : PassOne) (seq : Nat) (file : SegmentFile) :
    prepareSegment codec committed mode env i pass seq file =
      match segmentFailure codec mode env (seq, file) with
      | some e => .error e
      | none => .ok ((locate codec i file.bytes).foldl (note committed) pass,
          snapshotOf codec (seq, file)) := by
  unfold prepareSegment segmentFailure
  cases file.unreadable with
  | some e => rfl
  | none =>
    have hvd : ∀ fr ∈ (replayFrames codec file.bytes).1,
        fr.2.header.validate = .ok () := fun _ hf => replayFrames_valid hf
    simp only [foldlM_noteFrame committed i hvd pass, locate, snapshotOf]
    cases hstop : (replayFrames codec file.bytes).2 with
    | clean => cases mode <;> rfl
    | torn off => cases mode <;> rfl
    | corrupt off reason =>
      cases mode with
      | fail => rfl
      | salvage => cases env.renameError seq <;> rfl

lemma prepareSegments_eq (i : Nat) (pass : PassOne) (segs : List (Nat × SegmentFile)) :
    prepareSegments codec committed mode env i pass segs =
      match segs.findSome? (segmentFailure codec mode env) with
      | some e => .error e
      | none => .ok ((locateAll codec i segs).foldl (note committed) pass,
          segs.map (snapshotOf codec)) := by
  induction segs generalizing i pass with
  | nil => rfl
  | cons seg rest ih =>
    obtain ⟨seq, file⟩ := seg
    rw [prepareSegments, prepareSegment_eq, List.findSome?_cons]
    cases segmentFailure codec mode env (seq, file) with
    | some e => rfl
    | none =>
      simp only [ih, locateAll, List.foldl_append]
      cases rest.findSome? (segmentFailure codec mode env) <;> rfl

/-- The log entry of a frame, with its position. -/
def locatedEntry (frame : Located α) : Entry TableIdent (Located α) :=
  (Gc.logEntry frame.2).map fun record => (frame.1, record)

/-- Whether a located record is committed already. -/
def locatedSettled (committed : CommittedMap) (table : TableIdent) (frame : Located α) : Bool :=
  Gc.settled committed table frame.2

/-- The live records among some frames, with their positions. -/
def liveFrames (committed : CommittedMap) (frames : List (Located α)) :
    List (TableIdent × Located α) :=
  live (locatedSettled committed) (frames.map locatedEntry)

/-- An entry stands for a live record. -/
structure Matches (tables : List WalTableKey) (entry : ReplayEntry)
    (record : TableIdent × Located α) : Prop where
  position : entry.position = record.2.1
  generation : entry.generation = record.2.2.header.generation
  batchId : entry.batchId = record.2.2.header.batchId
  table : tables[entry.tableIndex]? = some (keyOf record.2.2)
  ident : record.1 = record.2.2.header.table

variable {en : ReplayEntry}

lemma Matches.mono {tables more : List WalTableKey} (hm : tables <+: more)
    {rc : TableIdent × Located α} (h : Matches tables en rc) : Matches more en rc := by
  obtain ⟨rest, rfl⟩ := hm
  refine ⟨h.position, h.generation, h.batchId, ?_, h.ident⟩
  rw [List.getElem?_append_left (List.getElem?_eq_some_iff.mp h.table).1, h.table]

/-- Interning extends the table list and yields an index of the key. -/
theorem intern_spec (tables : List WalTableKey) (key : WalTableKey) :
    tables <+: (intern tables key).1 ∧
      (intern tables key).1[(intern tables key).2]? = some key := by
  unfold intern
  split_ifs with h
  · refine ⟨List.prefix_rfl, ?_⟩
    have hlt : tables.idxOf key < tables.length := List.idxOf_lt_length_of_mem h
    rw [List.getElem?_eq_getElem hlt, List.getElem_idxOf]
  · exact ⟨List.prefix_append _ _, by simp⟩

/-- The state of the first pass after some frames: its surviving entries stand for the live records
so far. -/
structure Indexed (committed : CommittedMap) (pass : PassOne) (done : List (Located α)) :
    Prop where
  survivors : List.Forall₂ (Matches pass.tables) (pass.entries.filter (outlives pass))
    (liveFrames committed done)
  interned : ∀ entry ∈ pass.entries, entry.tableIndex < pass.tables.length
  entryFrame : ∀ entry ∈ pass.entries, entry.position ∈ done.map Prod.fst
  tombstoneFrame : ∀ table position, pass.latestTombstones table = some position →
    position ∈ done.map Prod.fst

variable {fr : Located α}

lemma liveFrames_append_drop (done : List (Located α)) (hop : fr.2.header.op = .dropTable) :
    liveFrames committed (done ++ [fr]) =
      (liveFrames committed done).filter fun rc => rc.1 ≠ fr.2.header.table := by
  simp only [liveFrames, List.map_append, live_append, List.map_cons, List.map_nil, locatedEntry,
    Gc.logEntry, hop, Entry.map, live, List.append_nil]
  apply List.filter_congr
  intro rc _
  simp [eq_comm]

lemma liveFrames_append_append (done : List (Located α)) (hop : fr.2.header.op = .append) :
    liveFrames committed (done ++ [fr]) = liveFrames committed done ++
        if covers committed (keyOf fr.2) fr.2.header.generation then []
        else [(fr.2.header.table, fr)] := by
  have hset : Gc.settled committed fr.2.header.table fr.2 =
      covers committed (keyOf fr.2) fr.2.header.generation := rfl
  by_cases hcov : covers committed (keyOf fr.2) fr.2.header.generation = true
  · simp [liveFrames, live_append, locatedEntry, Gc.logEntry, hop, Entry.map, live,
      locatedSettled, hset, hcov]
  · simp [liveFrames, live_append, locatedEntry, Gc.logEntry, hop, Entry.map, live,
      locatedSettled, hset, hcov]

variable {pass : PassOne}

lemma outlives_of_table {key : WalTableKey} (h : pass.tables[en.tableIndex]? = some key) :
    outlives pass en = true ↔ ∀ tomb, pass.latestTombstones key.ident = some tomb →
        tomb < en.position := by
  unfold outlives
  rw [h]
  cases hl : pass.latestTombstones key.ident <;> simp [hl]

/-- A tombstone ends the entries of its table and touches no other. -/
theorem Indexed.note_drop {done : List (Located α)} (h : Indexed committed pass done)
    (hn : ∀ p ∈ done.map Prod.fst, p < fr.1) (hop : fr.2.header.op = .dropTable) :
    Indexed committed (note committed pass fr) (done ++ [fr]) := by
  set aft := note committed pass fr with haf
  simp only [note, hop] at haf
  have htab : aft.tables = pass.tables := by rw [haf]
  have hens : aft.entries = pass.entries := by rw [haf]
  have hlat : ∀ tbl, aft.latestTombstones tbl =
      if tbl = fr.2.header.table then some fr.1 else pass.latestTombstones tbl := by
    rw [haf]
    exact fun _ => rfl
  have hout : ∀ en ∈ pass.entries, ∀ key, pass.tables[en.tableIndex]? = some key →
      (outlives aft en = true ↔ outlives pass en = true ∧ key.ident ≠ fr.2.header.table) := by
    intro en hen key hkey
    rw [outlives_of_table hkey, outlives_of_table (htab ▸ hkey)]
    constructor
    · intro hall
      have hne : key.ident ≠ fr.2.header.table := by
        intro heq
        have hlt := hall fr.1 (by rw [hlat, if_pos heq])
        exact FramePosition.lt_asymm hlt (hn _ (h.entryFrame en hen))
      refine ⟨fun tomb ht => hall tomb ?_, hne⟩
      rw [hlat, if_neg hne, ht]
    · rintro ⟨hall, hne⟩ tomb ht
      rw [hlat, if_neg hne] at ht
      exact hall tomb ht
  refine ⟨?_, ?_, ?_, ?_⟩
  · have hfil : pass.entries.filter (outlives aft) =
        (pass.entries.filter (outlives pass)).filter fun en =>
          (pass.tables[en.tableIndex]?).all fun key => key.ident ≠ fr.2.header.table := by
      rw [List.filter_filter]
      apply List.filter_congr
      intro en hen
      have hlt := h.interned en hen
      have hiff := hout en hen _ (List.getElem?_eq_getElem hlt)
      rw [Bool.eq_iff_iff, hiff, List.getElem?_eq_getElem hlt]
      simp [and_comm]
    rw [hens, htab, hfil, liveFrames_append_drop done hop]
    apply List.rel_filter _ h.survivors
    intro en record hmt
    simp [hmt.table, keyOf, hmt.ident]
  · rw [hens, htab]
    exact h.interned
  · intro en hen
    rw [hens] at hen
    simpa using Or.inl (by simpa using h.entryFrame en hen)
  · intro tbl pos hp
    rw [hlat] at hp
    split_ifs at hp
    · simp [← Option.some.inj hp]
    · simpa using Or.inl (by simpa using h.tombstoneFrame tbl pos hp)

/-- A new append joins the survivors unless it is committed. -/
theorem Indexed.note_append {done : List (Located α)} (h : Indexed committed pass done)
    (hn : ∀ p ∈ done.map Prod.fst, p < fr.1) (hop : fr.2.header.op = .append) :
    Indexed committed (note committed pass fr) (done ++ [fr]) := by
  have hm : ∀ p ∈ done.map Prod.fst, p ∈ (done ++ [fr]).map Prod.fst := by
    intro p hp
    rw [List.map_append]
    exact List.mem_append_left _ hp
  by_cases hcov : covers committed (keyOf fr.2) fr.2.header.generation = true
  · have hs : note committed pass fr = pass := by simp only [note, hop, if_pos hcov]
    rw [hs]
    refine ⟨?_, h.interned, fun e he => hm _ (h.entryFrame e he),
      fun t p hp => hm _ (h.tombstoneFrame t p hp)⟩
    rw [liveFrames_append_append done hop, if_pos hcov, List.append_nil]
    exact h.survivors
  · obtain ⟨hmo, hix⟩ := intern_spec pass.tables (keyOf fr.2)
    set en : ReplayEntry := ⟨fr.1, fr.2.header.generation, fr.2.header.batchId,
      (intern pass.tables (keyOf fr.2)).2⟩ with hen
    set aft := note committed pass fr with haf
    simp only [note, hop, if_neg hcov] at haf
    have htab : aft.tables = (intern pass.tables (keyOf fr.2)).1 := by rw [haf]
    have hens : aft.entries = pass.entries ++ [en] := by rw [haf]
    have hlat : aft.latestTombstones = pass.latestTombstones := by rw [haf]
    have hold : ∀ e ∈ pass.entries, outlives aft e = outlives pass e := by
      intro e he
      have hlt := h.interned e he
      have hget : aft.tables[e.tableIndex]? = pass.tables[e.tableIndex]? := by
        obtain ⟨rest, hr⟩ := hmo
        rw [htab, ← hr, List.getElem?_append_left hlt]
      unfold outlives
      rw [hget, hlat]
    have hnew : outlives aft en = true := by
      rw [outlives_of_table (htab ▸ hix), hlat]
      exact fun tomb ht => hn tomb (h.tombstoneFrame _ _ ht)
    refine ⟨?_, ?_, ?_, ?_⟩
    · rw [liveFrames_append_append done hop, if_neg hcov, hens, List.filter_append,
        List.filter_congr hold, htab, List.filter_singleton, hnew]
      refine List.rel_append (h.survivors.imp fun _ _ => Matches.mono hmo) ?_
      exact .cons ⟨rfl, rfl, rfl, hix, rfl⟩ .nil
    · intro e he
      rw [hens, List.mem_append, List.mem_singleton] at he
      rw [htab]
      rcases he with he | rfl
      · exact (h.interned e he).trans_le hmo.length_le
      · exact (List.getElem?_eq_some_iff.mp hix).1
    · intro e he
      rw [hens, List.mem_append, List.mem_singleton] at he
      rcases he with he | rfl
      · exact hm _ (h.entryFrame e he)
      · simp [hen]
    · rw [hlat]
      exact fun t p hp => hm _ (h.tombstoneFrame t p hp)

/-- The invariant of the first pass along its whole run. -/
theorem Indexed.foldl {frs : List (Located α)} :
    ∀ {pass : PassOne} {done : List (Located α)}, Indexed committed pass done →
      ((done ++ frs).map Prod.fst).Pairwise (· < ·) →
      Indexed committed (frs.foldl (note committed) pass) (done ++ frs) := by
  induction frs with
  | nil =>
    intro pass done h _
    simpa using h
  | cons fr rest ih =>
    intro pass done h hsrt
    have hn : ∀ p ∈ done.map Prod.fst, p < fr.1 := by
      rw [List.map_append, List.pairwise_append] at hsrt
      exact fun p hp => hsrt.2.2 p hp _ (by simp)
    have hs : Indexed committed (note committed pass fr) (done ++ [fr]) := by
      cases hop : fr.2.header.op with
      | append => exact h.note_append hn hop
      | dropTable => exact h.note_drop hn hop
    rw [List.append_cons] at hsrt ⊢
    exact ih hs hsrt

lemma Indexed.start : Indexed committed ⟨[], [], fun _ => none⟩ ([] : List (Located α)) where
  survivors := .nil
  interned := by simp
  entryFrame := by simp
  tombstoneFrame := by simp

lemma mem_locate {i : Nat} (h : fr ∈ locate codec i bs) :
    fr.1.segment = i ∧ (fr.1.offset, fr.2) ∈ (replayFrames codec bs).1 := by
  obtain ⟨f, hf, rfl⟩ := List.mem_map.mp h
  exact ⟨rfl, hf⟩

variable {segs : List (Nat × SegmentFile)}

lemma mem_locateAll {i : Nat} (h : fr ∈ locateAll codec i segs) :
    ∃ n seg, fr.1.segment = i + n ∧ segs[n]? = some seg ∧
      (fr.1.offset, fr.2) ∈ (replayFrames codec seg.2.bytes).1 := by
  induction segs generalizing i with
  | nil => simp [locateAll] at h
  | cons seg rest ih =>
    rcases List.mem_append.mp h with h | h
    · obtain ⟨hix, hfr⟩ := mem_locate h
      exact ⟨0, seg, hix, rfl, hfr⟩
    · obtain ⟨n, fd, hix, hget, hfr⟩ := ih h
      exact ⟨n + 1, fd, by omega, by simpa using hget, hfr⟩

lemma mem_locateAll_of_getElem? {i n : Nat} {seg : Nat × SegmentFile}
    (hseg : segs[n]? = some seg) {fr : Nat × WalRecord α}
    (hfr : fr ∈ (replayFrames codec seg.2.bytes).1) :
    (⟨i + n, fr.1⟩, fr.2) ∈ locateAll codec i segs := by
  induction segs generalizing i n with
  | nil => simp at hseg
  | cons first rest ih =>
    rw [locateAll, List.mem_append]
    cases n with
    | zero =>
      cases hseg
      exact Or.inl (List.mem_map.mpr ⟨fr, hfr, rfl⟩)
    | succ n =>
      have hr := @ih (i + 1) n hseg
      rw [Nat.add_right_comm, Nat.add_assoc] at hr
      exact Or.inr hr

lemma readFrame_consumes (off : Nat) (rc : WalRecord α) (used : Nat)
    (h : readFrame codec bs off bs.length = .complete rc used) : 0 < used := by
  rw [readFrame_eq codec (le_refl _), List.take_length] at h
  have hs := (decodeFrame_complete h).2.2.1
  exact lt_of_lt_of_le (by simp [frameHeaderSize]) hs

lemma locateAll_sorted (i : Nat) (segs : List (Nat × SegmentFile)) :
    ((locateAll codec i segs).map Prod.fst).Pairwise (· < ·) := by
  induction segs generalizing i with
  | nil => simp [locateAll]
  | cons seg rest ih =>
    rw [locateAll, List.map_append, List.pairwise_append]
    refine ⟨?_, ih _, ?_⟩
    · have hsrt : ((replayFrames codec seg.2.bytes).1.map Prod.fst).Pairwise (· < ·) :=
        frameLoop_sorted readFrame_consumes _ _
      rw [locate, List.map_map, List.pairwise_map]
      refine (List.pairwise_map.mp hsrt).imp ?_
      intro a b hab
      exact Or.inr ⟨rfl, hab⟩
    · intro p hp q hq
      obtain ⟨f, hf, rfl⟩ := List.mem_map.mp hp
      obtain ⟨g, hg, rfl⟩ := List.mem_map.mp hq
      obtain ⟨n, _, hn, _⟩ := mem_locateAll hg
      have hf' := (mem_locate hf).1
      exact Or.inl (by omega)

/-- A frame of the validated beginning is read again from its position. -/
theorem readFrame_again {off : Nat} {rc : WalRecord α} (h : (off, rc) ∈ (replayFrames codec bs).1) :
    ∃ used, readFrame codec bs off
      ((replayFrames codec bs).2.replayLen bs.length) = .complete rc used := by
  set lim := (replayFrames codec bs).2.replayLen bs.length with hlimit
  obtain ⟨_, hlt, used, hr, hstop⟩ := frameLoop_mem h
  have hle : lim ≤ bs.length := (frameLoop_replayLen _ _).2
  simp only [readFrame_eq codec (le_refl _), List.take_length] at hr
  obtain ⟨hlen, hfit, hcon, _⟩ := decodeFrame_complete hr
  have hend : min (off + used) bs.length ≤ lim := hstop
  have hdrop : (bs.drop off).length = bs.length - off := List.length_drop
  refine ⟨used, ?_⟩
  rw [readFrame_eq codec hle, List.drop_take, decodeFrame_take codec hlen _ (by omega)]
  · exact hr
  · omega

lemma nextRecord_eq {plan : ReplayPlan} (hp : plan.segments = segs.map (snapshotOf codec))
    {rc : TableIdent × Located α} (hmt : Matches plan.tables en rc)
    (hfr : rc.2 ∈ locateAll codec 0 segs) (hop : rc.2.2.header.op = .append) :
    nextRecord codec env plan en = .ok rc.2.2 := by
  obtain ⟨n, seg, hix, hget, hmem⟩ := mem_locateAll hfr
  obtain ⟨consumed, hr⟩ := readFrame_again hmem
  have hsn : plan.segments[en.position.segment]? = some (snapshotOf codec seg) := by
    rw [hp, List.getElem?_map, hmt.position, hix, Nat.zero_add, hget, Option.map_some]
  have hkey := tableKey_eq (replayFrames_valid hmem) hop
  rw [← hmt.position] at hr
  unfold nextRecord
  simp only [hsn, snapshotOf, hr, hmt.table, hop, hmt.generation, hmt.batchId,
    hkey, and_self, if_true]

/-- The replay order without the position: generation and batch. -/
def recordLe (a b : WalRecord α) : Prop :=
  a.header.generation < b.header.generation ∨
    (a.header.generation = b.header.generation ∧
      (a.header.batchId < b.header.batchId ∨ a.header.batchId = b.header.batchId))

instance : DecidableRel (recordLe (α := α)) := fun _ _ =>
  inferInstanceAs (Decidable (_ ∨ _ ∧ (_ ∨ _)))

/-- The order of `entryLe` on located records. -/
def locatedLe (a b : TableIdent × Located α) : Prop :=
  a.2.2.header.generation < b.2.2.header.generation ∨
    (a.2.2.header.generation = b.2.2.header.generation ∧
      (a.2.2.header.batchId < b.2.2.header.batchId ∨
        (a.2.2.header.batchId = b.2.2.header.batchId ∧ ¬ b.2.1 < a.2.1)))

instance : DecidableRel (locatedLe (α := α)) := fun _ _ =>
  inferInstanceAs (Decidable (_ ∨ _ ∧ (_ ∨ _ ∧ ¬ _)))

lemma entryLe_iff {tables : List WalTableKey} (a b : ReplayEntry)
    (c d : TableIdent × Located α) (hac : Matches tables a c) (hbd : Matches tables b d) :
    entryLe a b ↔ locatedLe c d := by
  simp only [entryLe, locatedLe, hac.generation, hac.batchId, hac.position, hbd.generation,
    hbd.batchId, hbd.position]

lemma locatedLe_iff {a b : TableIdent × Located α} (h : a.2.1 < b.2.1) :
    locatedLe a b ↔ recordLe a.2.2 b.2.2 := by
  simp only [locatedLe, recordLe, FramePosition.lt_asymm h, not_false_eq_true, and_true]

/-- The records of a directory in physical order. -/
def records (codec : FrameCodec α) (segments : List (Nat × SegmentFile)) :
    List (WalRecord α) :=
  segments.flatMap fun segment => (segmentFrames codec segment.2.bytes).1.map Prod.snd

/-- The records that replay yields for segments that have no failure. -/
def liveRecords (codec : FrameCodec α) (committed : CommittedMap)
    (segments : List (Nat × SegmentFile)) : List (WalRecord α) :=
  (live (Gc.settled committed) (Gc.recordLog (records codec segments))).map Prod.snd

lemma locateAll_records (i : Nat) (segs : List (Nat × SegmentFile)) :
    (locateAll codec i segs).map Prod.snd = records codec segs := by
  induction segs generalizing i with
  | nil => rfl
  | cons sg rest ih =>
    rw [locateAll, List.map_append, ih, records, records, List.flatMap_cons, locate,
      List.map_map, replayFrames_eq]
    rfl

lemma liveFrames_records (i : Nat) (segs : List (Nat × SegmentFile)) :
    (liveFrames committed (locateAll codec i segs)).map (fun rc => rc.2.2) =
      liveRecords codec committed segs := by
  have hlog : ((locateAll codec i segs).map locatedEntry).map (Entry.map Prod.snd) =
      Gc.recordLog (records codec segs) := by
    rw [← locateAll_records i, Gc.recordLog, List.map_map, List.map_map]
    apply List.map_congr_left
    intro fr _
    cases hop : fr.2.header.op <;> simp [locatedEntry, Gc.logEntry, hop, Entry.map]
  have hl : live (Gc.settled committed)
      (((locateAll codec i segs).map locatedEntry).map (Entry.map Prod.snd)) =
      (live (locatedSettled committed) ((locateAll codec i segs).map locatedEntry)).map
        (Prod.map id Prod.snd) := live_map _ _ _ fun _ _ => rfl
  rw [hlog] at hl
  rw [liveRecords, hl, List.map_map, liveFrames]
  rfl

/-- Live frames are appends among the frames, in the order of their positions. -/
theorem liveFrames_spec (committed : CommittedMap) {frs : List (Located α)}
    (hsrt : (frs.map Prod.fst).Pairwise (· < ·)) :
    (∀ rc ∈ liveFrames committed frs, rc.2 ∈ frs ∧ rc.2.2.header.op = .append) ∧
      (liveFrames committed frs).Pairwise fun a b => a.2.1 < b.2.1 := by
  induction frs with
  | nil => simp [liveFrames, live]
  | cons fr rest ih =>
    rw [List.map_cons, List.pairwise_cons] at hsrt
    obtain ⟨hmem, hpai⟩ := ih hsrt.2
    have hlat : ∀ rc ∈ liveFrames committed rest, rc.2 ∈ fr :: rest ∧ rc.2.2.header.op = .append :=
      fun rc hr => ⟨List.mem_cons_of_mem _ (hmem rc hr).1, (hmem rc hr).2⟩
    cases hop : fr.2.header.op with
    | dropTable =>
      have hs : liveFrames committed (fr :: rest) = liveFrames committed rest := by
        simp [liveFrames, locatedEntry, Gc.logEntry, hop, Entry.map, live]
      rw [hs]
      exact ⟨hlat, hpai⟩
    | append =>
      have hc : liveFrames committed (fr :: rest) = liveFrames committed rest ∨
          liveFrames committed (fr :: rest) =
            (fr.2.header.table, fr) :: liveFrames committed rest := by
        simp only [liveFrames, List.map_cons, locatedEntry, Gc.logEntry, hop, Entry.map, live]
        split_ifs
        · exact Or.inl rfl
        · exact Or.inr rfl
      rcases hc with hc | hc
      · rw [hc]
        exact ⟨hlat, hpai⟩
      · rw [hc, List.pairwise_cons]
        refine ⟨?_, ?_, hpai⟩
        · intro rc hr
          rcases List.mem_cons.mp hr with rfl | hr
          · exact ⟨List.mem_cons_self, hop⟩
          · exact hlat rc hr
        · intro rc hr
          exact hsrt.1 _ (List.mem_map_of_mem (hmem rc hr).1)

lemma mapM_forall₂ {β γ ε δ : Type*} {R : β → γ → Prop} {f : β → Except ε δ} {g : γ → δ}
    {l : List β} {m : List γ} (h : List.Forall₂ R l m)
    (hf : ∀ b c, c ∈ m → R b c → f b = .ok (g c)) : l.mapM f = .ok (m.map g) := by
  induction h with
  | nil => rfl
  | cons hr _ ih =>
    rw [List.mapM_cons, hf _ _ List.mem_cons_self hr,
      ih fun b c hc => hf b c (List.mem_cons_of_mem _ hc)]
    rfl

variable (codec committed mode env) in
/-- The plan of segments that replay does not refuse: its entries stand for the live
records in replay order. -/
theorem prepare_eq (fs : WalDir) :
    match (segmentPaths fs).findSome? (segmentFailure codec mode env) with
    | some e => prepare codec committed mode env fs = .error e
    | none => ∃ plan, prepare codec committed mode env fs = .ok plan ∧
        plan.segments = (segmentPaths fs).map (snapshotOf codec) ∧
        List.Forall₂ (Matches plan.tables) plan.entries
          ((liveFrames committed (locateAll codec 0 (segmentPaths fs))).insertionSort
            locatedLe) := by
  set segs := segmentPaths fs with hsegs
  unfold prepare
  rw [← hsegs, prepareSegments_eq]
  cases segs.findSome? (segmentFailure codec mode env) with
  | some e => rfl
  | none =>
    have hind := Indexed.foldl (@Indexed.start α committed) (@locateAll_sorted α codec 0 segs)
    exact ⟨_, rfl, rfl, StableSort.forall₂_insertionSort hind.survivors entryLe_iff⟩

/-- The second pass reads the records that the entries stand for. -/
theorem collect_eq {plan : ReplayPlan} (hsegs : plan.segments = segs.map (snapshotOf codec))
    (hens : List.Forall₂ (Matches plan.tables) plan.entries
      ((liveFrames committed (locateAll codec 0 segs)).insertionSort locatedLe)) :
    collect codec env plan = .ok
      (((liveFrames committed (locateAll codec 0 segs)).insertionSort locatedLe).map
        fun rc => rc.2.2) := by
  apply mapM_forall₂ hens
  intro entry rc hr hmt
  obtain ⟨hfr, hop⟩ := (liveFrames_spec committed (locateAll_sorted 0 segs)).1 rc
    ((List.mem_insertionSort _).mp hr)
  exact nextRecord_eq hsegs hmt hfr hop

variable (codec committed mode env) in
/-- The error of the first segment that replay refuses, or the live records of all segments, sorted
by generation and batch. -/
theorem replay_eq (fs : WalDir) :
    replay codec committed mode env fs =
      match (segmentPaths fs).findSome? (segmentFailure codec mode env) with
      | some e => .error e
      | none => .ok ((liveRecords codec committed (segmentPaths fs)).insertionSort recordLe) := by
  have hpre := prepare_eq codec committed mode env fs
  rw [replay]
  cases hfai : (segmentPaths fs).findSome? (segmentFailure codec mode env) with
  | some e =>
    simp only [hfai] at hpre
    rw [hpre]
  | none =>
    simp only [hfai] at hpre
    obtain ⟨plan, hp, hsegs, hens⟩ := hpre
    rw [hp]
    dsimp only
    rw [collect_eq hsegs hens, ← liveFrames_records 0]
    congr 1
    apply StableSort.map_insertionSort
    exact (liveFrames_spec committed (locateAll_sorted 0 _)).2.imp locatedLe_iff

end Replay

end TeoDB.Storage.Wal

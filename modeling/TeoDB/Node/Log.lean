import TeoDB.Storage.Wal.GcReplay

/-!
# The log of a node, record by record

Segments hold the records that were written to them, in order. Each record carries the number of
the table incarnation that an append was made for, or whose drop a tombstone records. No function
of the log reads it.
-/

namespace TeoDB.Node

open TeoDB.Core Lib Lib.TombstoneLog Storage.Wal

variable {α : Type}

/-- A record in the log, with its incarnation. -/
structure Logged (α : Type) where
  record : WalRecord α
  birth : Nat
deriving DecidableEq

/-- Closed segments in order, and the open one after them. -/
structure NodeLog (α : Type) where
  closed : List (Nat × List (Logged α))
  current : Option (Nat × List (Logged α))
  nextSeq : Nat
deriving DecidableEq

namespace NodeLog

variable (log : NodeLog α)

def segments : List (Nat × List (Logged α)) := log.closed ++ log.current.toList

/-- All records in physical order. -/
def flat : List (Logged α) := log.segments.flatMap Prod.snd

/-- Write one record, opening a segment when none is open. -/
def write (entry : Logged α) : NodeLog α :=
  match log.current with
  | none => { log with current := some (log.nextSeq, [entry]), nextSeq := log.nextSeq + 1 }
  | some (seq, entries) => { log with current := some (seq, entries ++ [entry]) }

/-- Close the open segment. -/
def rotate : NodeLog α :=
  { log with closed := log.segments, current := none }

/-- What a scan of the closed segments yields. -/
def scans : List (Nat × SegmentScan) :=
  log.closed.map fun segment =>
    (segment.1, ⟨segment.2.map fun entry => toScanFrame entry.record, false⟩)

/-- A collection pass that is cut off after some deletions. -/
def collect (committed : CommittedMap) (removeFails : Nat → Bool) (count : Nat) : NodeLog α :=
  let deleted := (Gc.deleteDeadSegments committed removeFails []
    (Gc.markVoidedFrames log.scans).1).take count
  { log with closed := log.closed.filter fun segment => segment.1 ∉ deleted }

/-- The log as it is opened again after a crash. -/
def reopen : NodeLog α :=
  { log.rotate with nextSeq := (log.segments.map Prod.fst).foldl max 0 + 1 }

@[simp] lemma flat_write (en : Logged α) : (log.write en).flat = log.flat ++ [en] := by
  unfold write
  cases h : log.current with
  | none => simp [flat, segments, h]
  | some sg => simp [flat, segments, h]

@[simp] lemma flat_rotate : log.rotate.flat = log.flat := by
  simp [flat, segments, rotate]

@[simp] lemma flat_reopen : log.reopen.flat = log.flat := by
  simp [flat, segments, reopen, rotate]

lemma flat_collect_sublist (cm : CommittedMap) (rf : Nat → Bool) (n : Nat) :
    (log.collect cm rf n).flat.Sublist log.flat := by
  have hclo : (log.collect cm rf n).segments.Sublist log.segments :=
    List.Sublist.append List.filter_sublist (List.Sublist.refl _)
  exact hclo.flatMap _

end NodeLog

/-- A quiet directory holds exactly the records of a log. -/
structure Represents (codec : FrameCodec α) (dir : QuietLog) (log : NodeLog α) : Prop where
  current : dir.current = log.current.map Prod.fst
  files : List.Forall₂ (fun (file : Nat × SegmentFile) (segment : Nat × List (Logged α)) =>
    file.1 = segment.1 ∧ (segmentFrames codec file.2.bytes).1.map Prod.snd =
      segment.2.map Logged.record) dir.files.entries log.segments

/-- A logged tombstone of the table that another record belongs to. -/
def Logged.Buries (tombstone entry : Logged α) : Prop :=
  tombstone.record.header.op = .dropTable ∧
    tombstone.record.header.table = entry.record.header.table

instance (tombstone entry : Logged α) : Decidable (tombstone.Buries entry) :=
  inferInstanceAs (Decidable (_ ∧ _))

/-- The committed map covers a logged append. -/
def Logged.covered (committed : CommittedMap) (entry : Logged α) : Bool :=
  covers committed (Replay.keyOf entry.record) entry.record.header.generation

namespace NodeLog

/-- Neither replay nor collection takes a record that is not committed away because of the tombstone
of an older incarnation. -/
structure NewerKept (log : NodeLog α) : Prop where
  replayed : ∀ codec dir, Represents codec dir log → ∀ committed mode env out,
    Replay.replay codec committed mode env dir.files = .ok out →
    ∀ before entry after, log.flat = before ++ entry :: after →
      entry.record.header.op = .append → entry.covered committed = false →
      (∀ tombstone ∈ after, tombstone.Buries entry → tombstone.birth < entry.birth) →
      entry.record ∈ out
  collected : ∀ codec dir, Represents codec dir log → ∀ committed removeFails,
    ∀ seq ∈ Gc.collectGarbage codec dir.files dir.current committed removeFails,
    ∀ earlier entries later, log.segments = earlier ++ (seq, entries) :: later →
    ∀ before entry after, entries = before ++ entry :: after →
      entry.record.header.op = .append →
      entry.covered committed = true ∨
        ∃ tombstone ∈ after ++ later.flatMap Prod.snd,
          tombstone.Buries entry ∧ entry.birth ≤ tombstone.birth

/-- Every tombstone comes after the records of its own and earlier incarnations only. -/
def OwnVoids (log : NodeLog α) : Prop :=
  log.flat.Pairwise fun entry tombstone =>
    entry.record.header.op = .append → tombstone.Buries entry → entry.birth ≤ tombstone.birth

end NodeLog

lemma logEntry_append {en : Logged α} (h : en.record.header.op = .append) :
    Gc.logEntry en.record = .record en.record.header.table en.record := by
  simp [Gc.logEntry, h]

lemma buried_recordLog {es : List (Logged α)} {en : Logged α}
    (h : buried (Gc.recordLog (es.map Logged.record)) en.record.header.table = true) :
    ∃ tomb ∈ es, tomb.Buries en := by
  rw [buried_iff, Gc.recordLog, List.map_map, List.mem_map] at h
  obtain ⟨tomb, hmem, heq⟩ := h
  cases hop : tomb.record.header.op with
  | append => simp [Gc.logEntry, hop] at heq
  | dropTable =>
    have htb : tomb.record.header.table = en.record.header.table := by
      simpa [Gc.logEntry, hop] using heq
    exact ⟨tomb, hmem, hop, htb⟩

/-- An append that is not committed and that nothing after it voids is live. -/
theorem mem_live_of_logged {cm : CommittedMap} {bef aft : List (Logged α)}
    {en : Logged α} (hop : en.record.header.op = .append)
    (hc : en.covered cm = false) (haf : ∀ t ∈ aft, ¬ t.Buries en) :
    (en.record.header.table, en.record) ∈ live (Gc.settled cm)
      (Gc.recordLog ((bef ++ en :: aft).map Logged.record)) := by
  have hsp : Gc.recordLog ((bef ++ en :: aft).map Logged.record) =
      Gc.recordLog (bef.map Logged.record) ++ .record en.record.header.table en.record ::
          Gc.recordLog (aft.map Logged.record) := by
    simp [Gc.recordLog, logEntry_append hop]
  rw [hsp]
  apply mem_live_of_split
  · exact hc
  · apply Bool.eq_false_iff.mpr
    intro hb
    obtain ⟨tomb, hmem, hbur⟩ := buried_recordLog hb
    exact haf tomb hmem hbur

namespace Represents

variable {codec : FrameCodec α} {dir : QuietLog} {log : NodeLog α}

section

variable (h : Represents codec dir log)

include h

lemma seqs_eq : dir.files.entries.map Prod.fst = log.segments.map Prod.fst := by
  have hfs := h.files
  generalize dir.files.entries = files at hfs ⊢
  generalize log.segments = segments at hfs ⊢
  induction hfs with
  | nil => rfl
  | cons hs _ ih => rw [List.map_cons, List.map_cons, hs.1, ih]

lemma records_eq : Replay.records codec dir.files.entries = log.flat.map Logged.record := by
  have hfs := h.files
  rw [NodeLog.flat]
  generalize dir.files.entries = files at hfs ⊢
  generalize log.segments = segments at hfs ⊢
  induction hfs with
  | nil => rfl
  | cons hs _ ih =>
    rw [Replay.records, List.flatMap_cons, List.flatMap_cons, List.map_append, hs.2, ← ih,
      Replay.records]

lemma recordsAt_eq {seg : Nat × List (Logged α)} (hmem : seg ∈ log.segments) :
    Gc.recordsAt codec dir.files seg.1 = seg.2.map Logged.record := by
  obtain ⟨file, hf, hseq, hfrs⟩ : ∃ file ∈ dir.files.entries, file.1 = seg.1 ∧
      (segmentFrames codec file.2.bytes).1.map Prod.snd = seg.2.map Logged.record := by
    have hfs := h.files
    generalize dir.files.entries = files at hfs ⊢
    generalize log.segments = segments at hfs hmem
    induction hfs with
    | nil => simp at hmem
    | cons hs _ ih =>
      rcases List.mem_cons.mp hmem with rfl | hmem
      · exact ⟨_, List.mem_cons_self, hs⟩
      · obtain ⟨file, hf, hr⟩ := ih hmem
        exact ⟨file, List.mem_cons_of_mem _ hf, hr⟩
  rw [Gc.recordsAt, ← hseq, Gc.find?_of_mem hf]
  exact hfrs

lemma seqs_sorted : (log.segments.map Prod.fst).Pairwise (· < ·) := by
  rw [← h.seqs_eq, List.pairwise_map]
  exact dir.files.sorted

/-- A tombstone in a segment scanned after another one lies in a later segment. -/
theorem buried_later {seq : Nat} {prior rest : List Nat}
    (hsca : (Gc.scanned dir).map Prod.fst = prior ++ seq :: rest)
    {earlier later : List (Nat × List (Logged α))} {es : List (Logged α)}
    (hsegs : log.segments = earlier ++ (seq, es) :: later) {en : Logged α}
    (hbur : buried (Gc.logOf (Gc.recordsAt codec dir.files) rest) en.record.header.table = true) :
    ∃ tomb ∈ later.flatMap Prod.snd, tomb.Buries en := by
  have hsrt := h.seqs_sorted
  have hls : (prior ++ seq :: rest) <+: log.segments.map Prod.fst := by
    rw [← hsca, ← h.seqs_eq]
    exact (Gc.scanned_isPrefixOf dir).map _
  have hlater : ∀ seg ∈ log.segments, seg.1 ∈ rest → seg ∈ later := by
    intro seg hseg hr
    have hlt : seq < seg.1 := by
      have hs := hsrt.sublist hls.sublist
      rw [List.pairwise_append, List.pairwise_cons] at hs
      exact hs.2.1.1 _ hr
    rw [hsegs, List.map_append, List.map_cons, List.pairwise_append] at hsrt
    rw [hsegs] at hseg
    rcases List.mem_append.mp hseg with hmem | hmem
    · have hgt := hsrt.2.2 _ (List.mem_map_of_mem hmem) seq (by simp)
      omega
    · rcases List.mem_cons.mp hmem with rfl | hmem
      · exact absurd hlt (lt_irrefl _)
      · exact hmem
  rw [buried_iff, Gc.logOf, Gc.recordLog, List.mem_map] at hbur
  obtain ⟨rc, hrec, heq⟩ := hbur
  obtain ⟨x, hx, hrec⟩ := List.mem_flatMap.mp hrec
  obtain ⟨seg, hseg, rfl⟩ := List.mem_map.mp
    (hls.subset (List.mem_append_right _ (List.mem_cons_of_mem _ hx)))
  rw [h.recordsAt_eq hseg] at hrec
  have hmem : Entry.tombstone en.record.header.table ∈
      Gc.recordLog (seg.2.map Logged.record) := List.mem_map.mpr ⟨rc, hrec, heq⟩
  obtain ⟨tomb, ht, hbui⟩ := buried_recordLog (buried_iff.mpr hmem)
  exact ⟨tomb, List.mem_flatMap.mpr ⟨seg, hlater seg hseg hx, ht⟩, hbui⟩

end

end Represents

namespace NodeLog

variable {codec : FrameCodec α} {dir : QuietLog} {log : NodeLog α}

lemma OwnVoids.replayed (h : log.OwnVoids) (hrep : Represents codec dir log)
    {cm : CommittedMap} {mode : WalRecoveryMode} {env : ReplayEnv} {out : List (WalRecord α)}
    (hout : Replay.replay codec cm mode env dir.files = .ok out)
    {bef aft : List (Logged α)} {en : Logged α}
    (hf : log.flat = bef ++ en :: aft) (hop : en.record.header.op = .append)
    (hc : en.covered cm = false) (hold : ∀ tomb ∈ aft, tomb.Buries en → tomb.birth < en.birth) :
    en.record ∈ out := by
  have haf : ∀ t ∈ aft, ¬ t.Buries en := by
    intro t ht hbur
    rw [OwnVoids, hf, List.pairwise_append, List.pairwise_cons] at h
    have hle := h.2.1.1 t ht hop hbur
    have hlt := hold t ht hbur
    omega
  rw [Replay.replay_eq, segmentPaths_eq dir.seqBound] at hout
  split at hout
  · cases hout
  · obtain rfl := Except.ok.inj hout
    rw [List.mem_insertionSort, Replay.liveRecords, hrep.records_eq, hf, List.mem_map]
    exact ⟨_, mem_live_of_logged hop hc haf, rfl⟩

lemma OwnVoids.collected (h : log.OwnVoids) (hrep : Represents codec dir log)
    {cm : CommittedMap} {rf : Nat → Bool} {seq : Nat}
    (hseq : seq ∈ Gc.collectGarbage codec dir.files dir.current cm rf)
    {earlier later : List (Nat × List (Logged α))} {es : List (Logged α)}
    (hsegs : log.segments = earlier ++ (seq, es) :: later)
    {bef aft : List (Logged α)} {en : Logged α}
    (hens : es = bef ++ en :: aft) (hop : en.record.header.op = .append) :
    en.covered cm = true ∨ ∃ tomb ∈ aft ++ later.flatMap Prod.snd,
        tomb.Buries en ∧ en.birth ≤ tomb.birth := by
  by_cases hc : en.covered cm = true
  · exact Or.inl hc
  · right
    have hf : log.flat = (earlier.flatMap Prod.snd ++ bef) ++
        en :: (aft ++ later.flatMap Prod.snd) := by
      rw [flat, hsegs, hens]
      simp
    obtain ⟨tomb, hmem, hbur⟩ : ∃ tomb ∈ aft ++ later.flatMap Prod.snd, tomb.Buries en := by
      by_contra hnone
      have haf : ∀ t ∈ aft ++ later.flatMap Prod.snd, ¬ t.Buries en :=
        fun t ht hb => hnone ⟨t, ht, hb⟩
      rw [Gc.collectGarbage_eq] at hseq
      obtain ⟨prior, rest, hsca, hd⟩ := Gc.deleteDeadSegments_dead _ _ _ hseq
      have hat : Gc.recordsAt codec dir.files seq = es.map Logged.record := by
        have hmem : (seq, es) ∈ log.segments := by simp [hsegs]
        exact hrep.recordsAt_eq hmem
      have hl : (en.record.header.table, en.record) ∈ live (Gc.settled cm)
          (Gc.recordLog (Gc.recordsAt codec dir.files seq)) := by
        rw [hat, hens]
        exact mem_live_of_logged hop (Bool.eq_false_iff.mpr hc)
          fun t ht => haf t (List.mem_append_left _ ht)
      obtain ⟨tomb, hmem, hbur⟩ := hrep.buried_later hsca hsegs (hd _ hl)
      exact haf tomb (List.mem_append_right _ hmem) hbur
    refine ⟨tomb, hmem, hbur, ?_⟩
    rw [OwnVoids, hf, List.pairwise_append, List.pairwise_cons] at h
    exact h.2.1.1 tomb hmem hop hbur

lemma OwnVoids.newerKept (h : log.OwnVoids) : log.NewerKept where
  replayed _ _ hrep _ _ _ _ hout _ _ _ hf hop hc hold := h.replayed hrep hout hf hop hc hold
  collected _ _ hrep _ _ _ hseq _ _ _ hsegments _ _ _ hentries hop :=
    h.collected hrep hseq hsegments hentries hop

end NodeLog

end TeoDB.Node

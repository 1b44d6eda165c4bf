import TeoDB.Storage.Wal.ReplayPlan

/-!
# Salvage and the replay after it

In salvage mode a replay reads the beginning of a corrupt segment and moves the file out of the
way. What it yielded is yielded again by the next replay if nothing of it came from a moved
segment. Its tombstones still void what they did if each such record has another tombstone in a
segment that stays. Moving replaces a file that was moved before under the same sequence number,
which is free again after a restart.

## Implementation notes

The position of a frame is here the sequence number of its segment and the offset. All renames
succeed; a replay whose rename fails yields nothing.
-/

namespace TeoDB.Storage.Wal

open TeoDB.Core Lib Lib.TombstoneLog Lib.MachineInt

variable {α : Type}

/-- The files of a log directory: segments, and those that were quarantined. -/
structure WalDisk where
  segments : WalDir
  quarantined : WalDir

namespace WalDisk

/-- Move a segment to its quarantine path, replacing what is there. -/
def quarantine (disk : WalDisk) (seq : Nat) : WalDisk :=
  match disk.segments.find? seq with
  | none => disk
  | some file => ⟨disk.segments.erase seq, disk.quarantined.insert seq file⟩

/-- The directory after the renames of a plan. -/
def after (disk : WalDisk) (plan : ReplayPlan) : WalDisk :=
  ((plan.segments.filter fun snapshot => !snapshot.live).map SegmentSnapshot.seq).foldl quarantine
    disk

/-- The sequence number that the next writer starts with. -/
def scanNextSeq (disk : WalDisk) : Nat := disk.segments.keys.foldl max 0 + 1

end WalDisk

namespace Replay

/-- A salvage replay of the directory and the directory that it leaves. -/
def recover (codec : FrameCodec α) (committed : CommittedMap) (env : ReplayEnv)
    (disk : WalDisk) : TeoDBResult (List (WalRecord α) × WalDisk) :=
  match prepare codec committed .salvage env disk.segments with
  | .error error => .error error
  | .ok plan => (collect codec env plan).map fun records => (records, disk.after plan)

/-- Whether a salvage replay yields the record of a frame. -/
def Yields (codec : FrameCodec α) (committed : CommittedMap) (env : ReplayEnv) (files : WalDir)
    (frame : Located α) : Prop :=
  ∃ plan, prepare codec committed .salvage env files = .ok plan ∧
    ∃ entry ∈ plan.entries, nextRecord codec env plan entry = .ok frame.2 ∧
      (plan.segments[entry.position.segment]?).map SegmentSnapshot.seq = some frame.1.segment ∧
      entry.position.offset = frame.1.offset

/-- The frames of segments by sequence number and offset. -/
def framesOf (codec : FrameCodec α) (segments : List (Nat × SegmentFile)) : List (Located α) :=
  segments.flatMap fun segment => locate codec segment.1 segment.2.bytes

variable {codec : FrameCodec α} {committed : CommittedMap} {env : ReplayEnv}
  {segments : List (Nat × SegmentFile)} {fr : Located α}

lemma mem_framesOf : fr ∈ framesOf codec segments ↔ ∃ seg ∈ segments, fr.1.segment = seg.1 ∧
      (fr.1.offset, fr.2) ∈ (replayFrames codec seg.2.bytes).1 := by
  rw [framesOf, List.mem_flatMap]
  apply exists_congr
  intro seg
  apply and_congr_right
  intro _
  constructor
  · exact mem_locate
  · rintro ⟨hseg, hfr⟩
    refine List.mem_map.mpr ⟨_, hfr, ?_⟩
    rw [← hseg]

/-- The position of a frame with the sequence number in place of the index. -/
def bySeq (segments : List (Nat × SegmentFile)) (frame : Located α) : Located α :=
  (⟨(segments[frame.1.segment]?.map Prod.fst).getD 0, frame.1.offset⟩, frame.2)

lemma map_bySeq (bef segments : List (Nat × SegmentFile)) :
    (locateAll codec bef.length segments).map (bySeq (bef ++ segments)) =
      framesOf codec segments := by
  induction segments generalizing bef with
  | nil => rfl
  | cons seg rest ih =>
    have hr := ih (bef ++ [seg])
    rw [List.append_assoc, List.singleton_append, List.length_append, List.length_singleton] at hr
    rw [locateAll, List.map_append, hr, framesOf, framesOf, List.flatMap_cons]
    congr 1
    rw [locate, locate, List.map_map]
    apply List.map_congr_left
    intro frame _
    simp [bySeq]

/-- Frames by sequence number are ordered as the segments are. -/
lemma framesOf_sorted (h : segments.Pairwise fun a b => a.1 < b.1) :
    ((framesOf codec segments).map Prod.fst).Pairwise (· < ·) := by
  induction segments with
  | nil => simp [framesOf]
  | cons seg rest ih =>
    obtain ⟨hfirst, hr⟩ := List.pairwise_cons.mp h
    rw [framesOf, List.flatMap_cons, List.map_append, List.pairwise_append]
    refine ⟨?_, ih hr, ?_⟩
    · have hsrt := @locateAll_sorted α codec seg.1 [seg]
      rwa [locateAll, locateAll, List.append_nil] at hsrt
    · intro p hp q hq
      obtain ⟨f, hf, rfl⟩ := List.mem_map.mp hp
      obtain ⟨g, hg, rfl⟩ := List.mem_map.mp hq
      obtain ⟨o, hot, hseg, _⟩ := mem_framesOf.mp hg
      have hlt := hfirst o hot
      rw [← (mem_locate hf).1, ← hseg] at hlt
      exact Or.inl hlt

variable (segments) in
/-- Liveness does not depend on how positions are written. -/
lemma liveFrames_map_bySeq : liveFrames committed (framesOf codec segments) =
      (liveFrames committed (locateAll codec 0 segments)).map (Prod.map id (bySeq segments)) := by
  have hlog : (framesOf codec segments).map locatedEntry =
      ((locateAll codec 0 segments).map locatedEntry).map (Entry.map (bySeq segments)) := by
    rw [← map_bySeq [], List.map_map, List.map_map]
    apply List.map_congr_left
    intro fr _
    cases hop : fr.2.header.op <;> simp [locatedEntry, Gc.logEntry, bySeq, hop, Entry.map]
  rw [liveFrames, liveFrames, hlog]
  exact live_map _ _ _ fun _ _ => rfl

/-- The segments of a directory can be read and have numbers of 64 bits, and renames
succeed. -/
structure Recoverable (env : ReplayEnv) (segments : List (Nat × SegmentFile)) : Prop where
  readable : ∀ segment ∈ segments, segment.2.unreadable = none
  inRange : ∀ segment ∈ segments, segment.1 ≤ u64Max
  rename : ∀ seq, env.renameError seq = none

lemma Recoverable.no_failure (h : Recoverable env segments) :
    segments.findSome? (segmentFailure codec .salvage env) = none := by
  rw [List.findSome?_eq_none_iff]
  intro seg hseg
  unfold segmentFailure
  rw [h.readable seg hseg]
  cases (replayFrames codec seg.2.bytes).2 with
  | clean => rfl
  | torn off => rfl
  | corrupt off reason => simp [h.rename]

variable {fs : WalDir}

lemma Recoverable.segmentPaths_eq (h : Recoverable env fs.entries) :
    segmentPaths fs = fs.entries := by
  apply Wal.segmentPaths_eq
  intro seq hseq
  obtain ⟨seg, hseg, rfl⟩ := List.mem_map.mp hseq
  exact h.inRange seg hseg

lemma Recoverable.prepare_eq (h : Recoverable env fs.entries) :
    ∃ plan, prepare codec committed .salvage env fs = .ok plan ∧
      plan.segments = fs.entries.map (snapshotOf codec) ∧
      List.Forall₂ (Matches plan.tables) plan.entries
        ((liveFrames committed (locateAll codec 0 fs.entries)).insertionSort locatedLe) := by
  have hpre := Replay.prepare_eq codec committed .salvage env fs
  rwa [h.segmentPaths_eq, h.no_failure] at hpre

lemma exists_of_forall₂_left {β γ : Type} {R : β → γ → Prop} {l : List β} {m : List γ}
    (h : List.Forall₂ R l m) {b : β} (hb : b ∈ l) : ∃ c ∈ m, R b c := by
  induction h with
  | nil => exact absurd hb List.not_mem_nil
  | cons hr _ ih =>
    rcases List.mem_cons.mp hb with rfl | hb
    · exact ⟨_, List.mem_cons_self, hr⟩
    · obtain ⟨c, hc, hbc⟩ := ih hb
      exact ⟨c, List.mem_cons_of_mem _ hc, hbc⟩

/-- A live frame lies in one of the segments, at its index. -/
lemma bySeq_of_mem (h : fr ∈ locateAll codec 0 segments) :
    ∃ seg, segments[fr.1.segment]? = some seg ∧
      bySeq segments fr = (⟨seg.1, fr.1.offset⟩, fr.2) := by
  obtain ⟨n, seg, hix, hget, _⟩ := mem_locateAll h
  rw [Nat.zero_add] at hix
  refine ⟨seg, by rw [hix, hget], ?_⟩
  simp [bySeq, hix, hget]

/-- The frames to be replayed are the live ones of the plan, with their sequence numbers. -/
lemma replayed_iff_live (fs : WalDir) : Replayed committed (framesOf codec fs.entries) fr ↔
      ∃ rc ∈ liveFrames committed (locateAll codec 0 fs.entries), bySeq fs.entries rc.2 = fr := by
  have hmem : ∀ tbl, (tbl, fr) ∈ liveFrames committed (framesOf codec fs.entries) ↔
      tbl = fr.2.header.table ∧ Replayed committed (framesOf codec fs.entries) fr :=
    fun tbl => mem_liveFrames_iff (framesOf_sorted fs.sorted)
  constructor
  · intro hfr
    have hin := (hmem _).mpr ⟨rfl, hfr⟩
    rw [liveFrames_map_bySeq, List.mem_map] at hin
    obtain ⟨rc, hrec, heq⟩ := hin
    exact ⟨rc, hrec, congrArg Prod.snd heq⟩
  · rintro ⟨rc, hrec, rfl⟩
    refine ((hmem rc.1).mp ?_).2
    rw [liveFrames_map_bySeq, List.mem_map]
    exact ⟨rc, hrec, rfl⟩

lemma entry_reads_iff {plan : ReplayPlan}
    (hplan : plan.segments = segments.map (snapshotOf codec)) {en : ReplayEntry}
    {rc : TableIdent × Located α} (hmt : Matches plan.tables en rc)
    (hfr : rc.2 ∈ locateAll codec 0 segments) (hop : rc.2.2.header.op = .append) :
    (nextRecord codec env plan en = .ok fr.2 ∧
      (plan.segments[en.position.segment]?).map SegmentSnapshot.seq = some fr.1.segment ∧
      en.position.offset = fr.1.offset) ↔ bySeq segments rc.2 = fr := by
  obtain ⟨seg, hget, hseq⟩ := bySeq_of_mem hfr
  have hseg : (plan.segments[rc.2.1.segment]?).map SegmentSnapshot.seq = some seg.1 := by
    rw [hplan, List.getElem?_map, hget]
    rfl
  rw [nextRecord_eq hplan hmt hfr hop, hmt.position, hseg, hseq]
  obtain ⟨⟨seq, off⟩, read⟩ := fr
  simp only [Except.ok.injEq, Option.some.injEq, Prod.mk.injEq, FramePosition.mk.injEq]
  exact and_comm

/-- A salvage replay yields the frames that are to be replayed. -/
lemma yields_iff (h : Recoverable env fs.entries) :
    Yields codec committed env fs fr ↔ Replayed committed (framesOf codec fs.entries) fr := by
  obtain ⟨plan, hplan, hsegs, hens⟩ := @Recoverable.prepare_eq α codec committed env _ h
  have hs := (liveFrames_spec committed (@locateAll_sorted α codec 0 fs.entries)).1
  rw [replayed_iff_live]
  constructor
  · rintro ⟨other, hot, en, hen, hreads⟩
    cases hplan.symm.trans hot
    obtain ⟨rc, hrec, hmt⟩ := exists_of_forall₂_left hens hen
    rw [List.mem_insertionSort] at hrec
    obtain ⟨hfr, hop⟩ := hs rc hrec
    exact ⟨rc, hrec, (entry_reads_iff hsegs hmt hfr hop).mp hreads⟩
  · rintro ⟨rc, hrec, heq⟩
    obtain ⟨hfr, hop⟩ := hs rc hrec
    obtain ⟨en, hen, hmt⟩ := exists_of_forall₂_left hens.flip
      ((List.mem_insertionSort locatedLe).mpr hrec)
    exact ⟨plan, hplan, en, hen, (entry_reads_iff hsegs hmt hfr hop).mpr heq⟩

/-- Whether a sequence number is that of a corrupt segment. -/
def Corrupt (codec : FrameCodec α) (disk : WalDisk) (seq : Nat) : Prop :=
  ∃ file, disk.segments.find? seq = some file ∧
    (replayFrames codec file.bytes).2.isCorrupt = true

lemma find?_quarantine (disk : WalDisk) (first seq : Nat) :
    (disk.quarantine first).segments.find? seq =
        (if seq = first then none else disk.segments.find? seq) ∧
      (disk.quarantine first).quarantined.find? seq =
        if seq = first then (disk.segments.find? seq).or (disk.quarantined.find? seq)
        else disk.quarantined.find? seq := by
  unfold WalDisk.quarantine
  by_cases heq : seq = first
  · subst heq
    cases hf : disk.segments.find? seq <;> simp [hf, OrdMap.find?_erase, OrdMap.find?_insert]
  · cases disk.segments.find? first <;> simp [heq, OrdMap.find?_erase, OrdMap.find?_insert]

lemma find?_foldl_quarantine (seqs : List Nat) (disk : WalDisk) (seq : Nat) :
    (seqs.foldl WalDisk.quarantine disk).segments.find? seq =
        (if seq ∈ seqs then none else disk.segments.find? seq) ∧
      (seqs.foldl WalDisk.quarantine disk).quarantined.find? seq =
        if seq ∈ seqs then (disk.segments.find? seq).or (disk.quarantined.find? seq)
        else disk.quarantined.find? seq := by
  induction seqs generalizing disk with
  | nil => simp
  | cons first rest ih =>
    obtain ⟨hsegs, hqua⟩ := ih (disk.quarantine first)
    obtain ⟨hfirst, hmoved⟩ := find?_quarantine disk first seq
    rw [List.foldl_cons, hsegs, hqua, hfirst, hmoved]
    by_cases heq : seq = first <;> by_cases hin : seq ∈ rest <;> simp [heq, hin]

section

variable {disk : WalDisk} {plan : ReplayPlan}

section

variable (hplan : plan.segments = disk.segments.entries.map (snapshotOf codec))

include hplan

lemma mem_quarantined_iff {seq : Nat} :
    seq ∈ (plan.segments.filter fun sn => !sn.live).map SegmentSnapshot.seq ↔
      Corrupt codec disk seq := by
  rw [hplan, List.mem_map]
  constructor
  · rintro ⟨sn, hmem, rfl⟩
    obtain ⟨hmem, hl⟩ := List.mem_filter.mp hmem
    obtain ⟨seg, hseg, rfl⟩ := List.mem_map.mp hmem
    exact ⟨seg.2, (disk.segments.find?_eq_some_iff _ _).mpr hseg, by simpa [snapshotOf] using hl⟩
  · rintro ⟨file, hf, hcor⟩
    refine ⟨snapshotOf codec (seq, file), List.mem_filter.mpr ⟨?_, ?_⟩, rfl⟩
    · exact List.mem_map_of_mem ((disk.segments.find?_eq_some_iff _ _).mp hf)
    · simpa [snapshotOf] using hcor

lemma mem_entries_after {seg : Nat × SegmentFile} : seg ∈ (disk.after plan).segments.entries ↔
      seg ∈ disk.segments.entries ∧ ¬ Corrupt codec disk seg.1 := by
  obtain ⟨seq, file⟩ := seg
  rw [← OrdMap.find?_eq_some_iff, ← OrdMap.find?_eq_some_iff, WalDisk.after,
    (find?_foldl_quarantine _ _ _).1]
  split_ifs with hin
  · rw [mem_quarantined_iff hplan] at hin
    simp [hin]
  · rw [mem_quarantined_iff hplan] at hin
    simp [hin]

lemma quarantined_after (seq : Nat) :
    (Corrupt codec disk seq → (disk.after plan).quarantined.find? seq =
        (disk.segments.find? seq).or (disk.quarantined.find? seq)) ∧ (¬ Corrupt codec disk seq →
        (disk.after plan).quarantined.find? seq = disk.quarantined.find? seq) := by
  rw [WalDisk.after, (find?_foldl_quarantine _ _ _).2]
  exact ⟨fun h => if_pos ((mem_quarantined_iff hplan).mpr h),
    fun h => if_neg (mt (mem_quarantined_iff hplan).mp h)⟩

/-- The frames of the segments that stay and of later ones. -/
lemma mem_framesOf_after {later : List (Nat × SegmentFile)} :
    fr ∈ framesOf codec ((disk.after plan).segments.entries ++ later) ↔
      (fr ∈ framesOf codec disk.segments.entries ∧ ¬ Corrupt codec disk fr.1.segment) ∨
        fr ∈ framesOf codec later := by
  simp only [mem_framesOf, List.mem_append, mem_entries_after hplan]
  constructor
  · rintro ⟨seg, ⟨hin, hcl⟩ | hin, hseq, hfr⟩
    · exact Or.inl ⟨⟨seg, hin, hseq, hfr⟩, hseq ▸ hcl⟩
    · exact Or.inr ⟨seg, hin, hseq, hfr⟩
  · rintro (⟨⟨seg, hin, hseq, hfr⟩, hcl⟩ | ⟨seg, hin, hseq, hfr⟩)
    · exact ⟨seg, Or.inl ⟨hin, hseq ▸ hcl⟩, hseq, hfr⟩
    · exact ⟨seg, Or.inr hin, hseq, hfr⟩

end

end

/-- The directory that the next replay finds: what a replay has left, and newer segments. -/
structure Continued (env : ReplayEnv) (disk : WalDisk) (plan : ReplayPlan) (files : WalDir)
    (later : List (Nat × SegmentFile)) : Prop where
  entries : files.entries = (disk.after plan).segments.entries ++ later
  recoverable : Recoverable env files.entries
  behind : ∀ segment ∈ later, ∀ seq ∈ disk.segments.keys, seq < segment.1

/-- The next replay yields the same records but for those dropped since, nothing void comes back,
and what was quarantined is still there. -/
structure Preserved (codec : FrameCodec α) (committed : CommittedMap) (env : ReplayEnv)
    (disk : WalDisk) (plan : ReplayPlan) : Prop where
  records : ∀ files later, Continued env disk plan files later → ∀ frame,
    Yields codec committed env disk.segments frame →
    (∀ tombstone ∈ framesOf codec later, tombstone.2.header.op = .dropTable →
      tombstone.2.header.table ≠ frame.2.header.table) →
    Yields codec committed env files frame
  tombstones : ∀ files later, Continued env disk plan files later →
    ∀ frame ∈ framesOf codec disk.segments.entries,
      ¬ Yields codec committed env disk.segments frame → ¬ Yields codec committed env files frame
  quarantined : ∀ seq file, disk.quarantined.find? seq = some file →
    (disk.after plan).quarantined.find? seq = some file

/-- Corrupt segments hold nothing to be replayed, no tombstone that is needed, and have no number of
a quarantined one with other contents. -/
structure SafeToSalvage (codec : FrameCodec α) (committed : CommittedMap) (disk : WalDisk) :
    Prop where
  records : ∀ frame, Replayed committed (framesOf codec disk.segments.entries) frame →
    ¬ Corrupt codec disk frame.1.segment
  tombstones : ∀ frame ∈ framesOf codec disk.segments.entries,
    ∀ tombstone ∈ framesOf codec disk.segments.entries,
      frame.2.header.op = .append →
      (∀ cutoff, committed (keyOf frame.2) = some cutoff → cutoff < frame.2.header.generation) →
      tombstone.2.header.op = .dropTable → tombstone.2.header.table = frame.2.header.table →
      frame.1 < tombstone.1 → ¬ Corrupt codec disk frame.1.segment →
      Corrupt codec disk tombstone.1.segment →
      ∃ other ∈ framesOf codec disk.segments.entries, other.2.header.op = .dropTable ∧
        other.2.header.table = frame.2.header.table ∧ frame.1 < other.1 ∧
        ¬ Corrupt codec disk other.1.segment
  numbers : ∀ seq file, disk.segments.find? seq = some file → Corrupt codec disk seq →
    ∀ old, disk.quarantined.find? seq = some old → old = file

section

variable {disk : WalDisk} {plan : ReplayPlan}

lemma Continued.yields_iff {later : List (Nat × SegmentFile)}
    (h : Continued env disk plan fs later) : Yields codec committed env fs fr ↔
      Replayed committed (framesOf codec ((disk.after plan).segments.entries ++ later)) fr := by
  rw [Replay.yields_iff h.recoverable, h.entries]

variable (hplan : plan.segments = disk.segments.entries.map (snapshotOf codec))

include hplan

section

variable (h : Recoverable env disk.segments.entries)

include h

lemma continued_nil : Continued env disk plan (disk.after plan).segments [] where
  entries := (List.append_nil _).symm
  recoverable :=
    { readable := fun seg hs => h.readable seg ((mem_entries_after hplan).mp hs).1
      inRange := fun seg hs => h.inRange seg ((mem_entries_after hplan).mp hs).1
      rename := h.rename }
  behind := fun _ hs => absurd hs List.not_mem_nil

lemma SafeToSalvage.preserved
    (hs : SafeToSalvage codec committed disk) : Preserved codec committed env disk plan where
  records := by
    intro fs later hn fr hyie hlat
    rw [Replay.yields_iff h] at hyie
    rw [hn.yields_iff]
    have hcl := hs.records fr hyie
    refine ⟨(mem_framesOf_after hplan).mpr (Or.inl ⟨hyie.present, hcl⟩), hyie.append,
      hyie.uncommitted, ?_⟩
    intro tomb hin hd htb
    rcases (mem_framesOf_after hplan).mp hin with ⟨hin, _⟩ | hin
    · exact hyie.unvoided tomb hin hd htb
    · exact absurd htb (hlat tomb hin hd)
  tombstones := by
    intro fs later hn fr hin hv hyie
    rw [Replay.yields_iff h] at hv
    rw [hn.yields_iff] at hyie
    -- sequence numbers of later segments are new, so the frame is one of those that stay
    have hcl : ¬ Corrupt codec disk fr.1.segment := by
      rcases (mem_framesOf_after hplan).mp hyie.present with ⟨_, hcl⟩ | hlat
      · exact hcl
      · obtain ⟨old, hold, hseq, _⟩ := mem_framesOf.mp hin
        obtain ⟨new, hnew, hseq', _⟩ := mem_framesOf.mp hlat
        have hlt := hn.behind new hnew old.1 (List.mem_map_of_mem hold)
        omega
    refine hv ⟨hin, hyie.append, hyie.uncommitted, ?_⟩
    intro tomb ht hd htb hlt
    by_cases hcor : Corrupt codec disk tomb.1.segment
    · obtain ⟨o, hot, hd', htb', hlt', hcl'⟩ := hs.tombstones fr hin
        tomb ht hyie.append hyie.uncommitted hd htb hlt hcl hcor
      exact hyie.unvoided o ((mem_framesOf_after hplan).mpr (Or.inl ⟨hot, hcl'⟩)) hd' htb' hlt'
    · exact hyie.unvoided tomb ((mem_framesOf_after hplan).mpr (Or.inl ⟨ht, hcor⟩)) hd htb hlt
  quarantined := by
    intro seq old hold
    by_cases hcor : Corrupt codec disk seq
    · obtain ⟨file, hf, _⟩ := id hcor
      rw [(quarantined_after hplan seq).1 hcor, hf, Option.some_or,
        hs.numbers seq file hf hcor old hold]
    · rw [(quarantined_after hplan seq).2 hcor, hold]

lemma Preserved.safe
    (hk : Preserved codec committed env disk plan) : SafeToSalvage codec committed disk where
  records := by
    intro fr hfr
    have haga := hk.records _ [] (continued_nil hplan h) fr ((Replay.yields_iff h).mpr hfr)
      fun _ hin => absurd hin List.not_mem_nil
    rw [(continued_nil hplan h).yields_iff] at haga
    rcases (mem_framesOf_after hplan).mp haga.present with ⟨_, hcl⟩ | hlat
    · exact hcl
    · exact absurd hlat List.not_mem_nil
  tombstones := by
    intro fr hin tomb ht happ hunc hd htb hlt hcl _
    have hv : ¬ Yields codec committed env disk.segments fr := by
      rw [Replay.yields_iff h]
      exact fun hfr => hfr.unvoided tomb ht hd htb hlt
    have haga := hk.tombstones _ [] (continued_nil hplan h) fr hin hv
    rw [(continued_nil hplan h).yields_iff] at haga
    by_contra hnone
    refine haga ⟨(mem_framesOf_after hplan).mpr (Or.inl ⟨hin, hcl⟩), happ, hunc, ?_⟩
    intro o hot hd' htb' hlt'
    rcases (mem_framesOf_after hplan).mp hot with ⟨hot, hcl'⟩ | hlat
    · exact hnone ⟨o, hot, hd', htb', hlt', hcl'⟩
    · exact absurd hlat List.not_mem_nil
  numbers := by
    intro seq file hf hcor old hold
    have hsti := hk.quarantined seq old hold
    rw [(quarantined_after hplan seq).1 hcor, hf, Option.some_or] at hsti
    exact (Option.some.inj hsti).symm

end

end

/-- A salvage replay of a readable directory preserves what it should exactly if the directory was
safe to salvage. -/
theorem preserved_iff_safe (codec : FrameCodec α) (committed : CommittedMap) {env : ReplayEnv}
    {disk : WalDisk} (h : Recoverable env disk.segments.entries) :
    ∃ plan, prepare codec committed .salvage env disk.segments = .ok plan ∧
      (Preserved codec committed env disk plan ↔ SafeToSalvage codec committed disk) := by
  obtain ⟨plan, hplan, hsegs, _⟩ := @Recoverable.prepare_eq α codec committed env _ h
  exact ⟨plan, hplan, Preserved.safe hsegs h, SafeToSalvage.preserved hsegs h⟩

/-- Corrupt segments without frames whose numbers are new can be salvaged. -/
lemma safe_of_frameless {disk : WalDisk} (h : ∀ segment ∈ disk.segments.entries,
      (replayFrames codec segment.2.bytes).2.isCorrupt = true →
        (replayFrames codec segment.2.bytes).1 = [] ∧ disk.quarantined.find? segment.1 = none) :
    SafeToSalvage codec committed disk := by
  have hcl : ∀ fr ∈ framesOf codec disk.segments.entries, ¬ Corrupt codec disk fr.1.segment := by
    rintro fr hfr ⟨file, hf, hcor⟩
    obtain ⟨seg, hseg, heq, hin⟩ := mem_framesOf.mp hfr
    rw [heq, (disk.segments.find?_eq_some_iff _ _).mpr hseg] at hf
    cases hf
    rw [(h seg hseg hcor).1] at hin
    cases hin
  constructor
  · exact fun frame hfr => hcl frame hfr.present
  · exact fun _ _ tomb ht _ _ _ _ _ _ hcor => absurd hcor (hcl tomb ht)
  · rintro seq _ _ ⟨file, hf, hcor⟩ old hold
    have hnew := (h (seq, file) ((disk.segments.find?_eq_some_iff _ _).mp hf) hcor).2
    rw [hnew] at hold
    cases hold

/-- A directory on a disk whose renames succeed. -/
def calmEnv : ReplayEnv := ⟨"wal", fun _ => none⟩

/-- Eight bytes that no frame starts with. -/
def garbage : List UInt8 := [255, 255, 255, 255, 0, 0, 0, 0]

/-- The log of the orders table, a segment of garbage and a quarantined file. -/
def ordersDisk : WalDisk :=
  ⟨ordersDir.insert 8 ⟨garbage, none⟩, OrdMap.empty.insert 3 ⟨[1], none⟩⟩

theorem orders_preserved : Corrupt (ordersLib [0]).codec ordersDisk 8 ∧
    ∃ plan, prepare (ordersLib [0]).codec (fun _ => none) .salvage calmEnv ordersDisk.segments =
        .ok plan ∧
      Preserved (ordersLib [0]).codec (fun _ => none) calmEnv ordersDisk plan := by
  obtain ⟨plan, hplan, hiff⟩ := @preserved_iff_safe Nat (ordersLib [0]).codec (fun _ => none)
    calmEnv ordersDisk ⟨by decide, by decide, fun _ => rfl⟩
  refine ⟨⟨⟨garbage, none⟩, by decide +kernel⟩, plan, hplan, hiff.mpr (safe_of_frameless ?_)⟩
  decide +kernel

/-- An append in front of garbage. -/
def damagedAppend : WalDisk :=
  ⟨OrdMap.empty.insert 1 ⟨ordersFrame oneRow ++ garbage, none⟩, OrdMap.empty⟩

/-- An append, and in the next segment its tombstone in front of garbage. -/
def damagedTombstone : WalDisk :=
  ⟨(OrdMap.empty.insert 1 ⟨ordersFrame oneRow, none⟩).insert 2
    ⟨ordersFrame ordersDropped ++ garbage, none⟩, OrdMap.empty⟩

def recovered (disk : WalDisk) : Option (List (WalRecord Nat) × WalDisk) :=
  (recover (ordersLib [0]).codec (fun _ => none) calmEnv disk).toOption

/-- Recover from the given disk, and again from what is left. -/
def recoverTwice (disk : WalDisk) :
    Option (List (WalRecord Nat) × List (WalRecord Nat) × WalDisk) := do
  let (first, disk) ← recovered disk
  let (second, disk) ← recovered disk
  pure (first, second, disk)

/-- The files that salvage kept of a damaged append whose number was given out again. -/
def reusedNumber : Option (Nat × Option SegmentFile × Option SegmentFile) := do
  let (_, disk) ← recovered damagedAppend
  let seq := disk.scanNextSeq
  let written := { disk with segments := disk.segments.insert seq ⟨garbage, none⟩ }
  let (_, later) ← recovered written
  pure (seq, disk.quarantined.find? 1, later.quarantined.find? 1)

/-- A quarantined record is lost to the second replay, a void one comes back, and a quarantined file
is overwritten. -/
theorem salvage_forgets :
    (recoverTwice damagedAppend).map (fun r => (r.1, r.2.1)) = some ([oneRow], []) ∧
      (recoverTwice damagedTombstone).map (fun r => (r.1, r.2.1)) = some ([], [oneRow]) ∧
      reusedNumber = some (1, some ⟨ordersFrame oneRow ++ garbage, none⟩,
        some ⟨garbage, none⟩) := by
  decide +kernel

end Replay

end TeoDB.Storage.Wal

import TeoDB.Storage.Wal.Replay
import TeoDB.Storage.Wal.Frame

/-!
# What a replay plan stands for

The frames of the segments, one after another, are a log. An append of the log is
replayed if it lies above the committed cutoff of its incarnation and if no tombstone of
its table comes later. The plan yields these appends and no others, each of them once,
ordered by generation, batch and position, and its table keys are theirs.
-/

namespace TeoDB.Storage.Wal

open TeoDB.Core Lib Lib.TombstoneLog Lib.MachineInt

variable {α : Type}

/-- The keys of the tables that the entries of a plan belong to. -/
def ReplayPlan.tableKeys (plan : ReplayPlan) : List WalTableKey :=
  plan.entries.filterMap fun entry => plan.tables[entry.tableIndex]?

namespace Replay

/-- A frame of the log that is to be replayed. -/
structure Replayed (committed : CommittedMap) (frames : List (Located α)) (frame : Located α) :
    Prop where
  present : frame ∈ frames
  append : frame.2.header.op = .append
  uncommitted : ∀ cutoff, committed (keyOf frame.2) = some cutoff →
    cutoff < frame.2.header.generation
  unvoided : ∀ tombstone ∈ frames, tombstone.2.header.op = .dropTable →
    tombstone.2.header.table = frame.2.header.table → ¬ frame.1 < tombstone.1

/-- The strict replay order: generation, batch, position. -/
def Before (a b : Located α) : Prop :=
  a.2.header.generation < b.2.header.generation ∨
    (a.2.header.generation = b.2.header.generation ∧
      (a.2.header.batchId < b.2.header.batchId ∨
        (a.2.header.batchId = b.2.header.batchId ∧ a.1 < b.1)))

variable {codec : FrameCodec α} {committed : CommittedMap} {mode : WalRecoveryMode}
  {env : ReplayEnv} {files : WalDir}

lemma covers_eq_false_iff {key : WalTableKey} {gen : Nat} : covers committed key gen = false ↔
      ∀ cutoff, committed key = some cutoff → cutoff < gen := by
  unfold covers
  cases committed key <;> simp

lemma locatedEntry_of_append {fr : Located α} (h : fr.2.header.op = .append) :
    locatedEntry fr = .record fr.2.header.table fr := by
  simp [locatedEntry, Gc.logEntry, h, Entry.map]

lemma locatedEntry_of_dropTable {fr : Located α} (h : fr.2.header.op = .dropTable) :
    locatedEntry fr = .tombstone fr.2.header.table := by
  simp [locatedEntry, Gc.logEntry, h, Entry.map]

lemma buried_locatedEntry_iff {frs : List (Located α)} {tbl : TableIdent} :
    buried (frs.map locatedEntry) tbl = true ↔ ∃ tomb ∈ frs, tomb.2.header.op = .dropTable ∧
        tomb.2.header.table = tbl := by
  rw [buried_iff, List.mem_map]
  apply exists_congr
  intro fr
  apply and_congr_right
  intro _
  cases hop : fr.2.header.op with
  | append => simp [locatedEntry_of_append hop]
  | dropTable => simp [locatedEntry_of_dropTable hop]

/-- Live frames are those that are to be replayed. -/
theorem mem_liveFrames_iff {frs : List (Located α)}
    (hsrt : (frs.map Prod.fst).Pairwise (· < ·)) {tbl : TableIdent} {fr : Located α} :
    (tbl, fr) ∈ liveFrames committed frs ↔ tbl = fr.2.header.table ∧ Replayed committed frs fr := by
  rw [liveFrames, mem_live_iff]
  constructor
  · rintro ⟨_, _, hlog, hset, hbur⟩
    obtain ⟨bef, rest, rfl, rfl, hr⟩ := List.map_eq_append_iff.mp hlog
    obtain ⟨first, aft, rfl, hfst, rfl⟩ := List.map_eq_cons_iff.mp hr
    cases hop : first.2.header.op with
    | dropTable =>
      rw [locatedEntry_of_dropTable hop] at hfst
      cases hfst
    | append =>
      rw [locatedEntry_of_append hop] at hfst
      cases hfst
      refine ⟨rfl, by simp, hop, covers_eq_false_iff.mp hset, ?_⟩
      intro tomb hmem hd htb hlt
      rw [List.map_append, List.map_cons, List.pairwise_append, List.pairwise_cons] at hsrt
      rcases List.mem_append.mp hmem with hmem | hmem
      · have hbf := hsrt.2.2 _ (List.mem_map_of_mem hmem) fr.1 List.mem_cons_self
        exact FramePosition.lt_asymm hlt hbf
      · rcases List.mem_cons.mp hmem with rfl | hmem
        · exact FramePosition.lt_asymm hlt hlt
        · have hde := buried_locatedEntry_iff.mpr ⟨tomb, hmem, hd, htb⟩
          rw [hbur] at hde
          cases hde
  · rintro ⟨rfl, hfr⟩
    obtain ⟨bef, aft, rfl⟩ := List.append_of_mem hfr.present
    refine ⟨bef.map locatedEntry, aft.map locatedEntry, ?_,
      covers_eq_false_iff.mpr hfr.uncommitted, ?_⟩
    · rw [List.map_append, List.map_cons, locatedEntry_of_append hfr.append]
    · rw [← Bool.not_eq_true, buried_locatedEntry_iff]
      rintro ⟨tomb, hmem, hd, htb⟩
      rw [List.map_append, List.map_cons, List.pairwise_append, List.pairwise_cons] at hsrt
      exact hfr.unvoided tomb (by simp [hmem]) hd htb (hsrt.2.1.1 _ (List.mem_map_of_mem hmem))

lemma FramePosition.eq_of_not_lt {a b : FramePosition} (hab : ¬ a < b) (hba : ¬ b < a) :
    a = b := by
  obtain ⟨s, o⟩ := a
  obtain ⟨t, p⟩ := b
  simp only [FramePosition.lt_iff] at hab hba
  simp only [FramePosition.mk.injEq]
  omega

lemma locatedLe_total (a b : TableIdent × Located α) : locatedLe a b ∨ locatedLe b a := by
  have hpos : ¬ b.2.1 < a.2.1 ∨ ¬ a.2.1 < b.2.1 := by
    by_cases h : b.2.1 < a.2.1
    · exact Or.inr (FramePosition.lt_asymm h)
    · exact Or.inl h
  unfold locatedLe
  rcases lt_trichotomy a.2.2.header.generation b.2.2.header.generation with h | h | h
  · exact Or.inl (Or.inl h)
  · rcases lt_trichotomy a.2.2.header.batchId b.2.2.header.batchId with hb | hb | hb
    · exact Or.inl (Or.inr ⟨h, Or.inl hb⟩)
    · rcases hpos with hp | hp
      · exact Or.inl (Or.inr ⟨h, Or.inr ⟨hb, hp⟩⟩)
      · exact Or.inr (Or.inr ⟨h.symm, Or.inr ⟨hb.symm, hp⟩⟩)
    · exact Or.inr (Or.inr ⟨h.symm, Or.inl hb⟩)
  · exact Or.inr (Or.inl h)

lemma locatedLe_trans {a b c : TableIdent × Located α} (hab : locatedLe a b)
    (hbc : locatedLe b c) : locatedLe a c := by
  have hpos : ¬ b.2.1 < a.2.1 → ¬ c.2.1 < b.2.1 → ¬ c.2.1 < a.2.1 := by
    simp only [FramePosition.lt_iff]
    omega
  unfold locatedLe at *
  rcases hab with hab | ⟨hg, hab⟩
  · rcases hbc with hbc | ⟨hg', _⟩
    · exact Or.inl (hab.trans hbc)
    · exact Or.inl (hg' ▸ hab)
  · rcases hbc with hbc | ⟨hg', hbc⟩
    · exact Or.inl (hg ▸ hbc)
    · refine Or.inr ⟨hg.trans hg', ?_⟩
      rcases hab with hab | ⟨hb, hab⟩
      · rcases hbc with hbc | ⟨hb', _⟩
        · exact Or.inl (hab.trans hbc)
        · exact Or.inl (hb' ▸ hab)
      · rcases hbc with hbc | ⟨hb', hbc⟩
        · exact Or.inl (hb ▸ hbc)
        · exact Or.inr ⟨hb.trans hb', hpos hab hbc⟩

/-- Sorting live frames puts each of them strictly before the next. -/
theorem sorted_before {l : List (TableIdent × Located α)}
    (hdis : l.Pairwise fun a b => a.2.1 < b.2.1) :
    (l.insertionSort locatedLe).Pairwise fun a b => Before a.2 b.2 := by
  have htotal : Std.Total (α := TableIdent × Located α) locatedLe := ⟨locatedLe_total⟩
  have htrans : IsTrans (TableIdent × Located α) locatedLe := ⟨fun _ _ _ => locatedLe_trans⟩
  have hne : (l.insertionSort locatedLe).Pairwise fun a b => a.2.1 ≠ b.2.1 := by
    have hs : ∀ {a b : TableIdent × Located α}, a.2.1 ≠ b.2.1 → b.2.1 ≠ a.2.1 :=
      fun h => Ne.symm h
    rw [(List.perm_insertionSort locatedLe l).pairwise_iff hs]
    apply hdis.imp
    intro a b hlt heq
    rw [heq] at hlt
    exact FramePosition.lt_asymm hlt hlt
  apply ((List.pairwise_insertionSort locatedLe l).and hne).imp
  rintro a b ⟨hle, hne⟩
  rcases hle with hle | ⟨hg, hle | ⟨hb, hle⟩⟩
  · exact Or.inl hle
  · exact Or.inr ⟨hg, Or.inl hle⟩
  · refine Or.inr ⟨hg, Or.inr ⟨hb, ?_⟩⟩
    by_contra hlt
    exact hne (FramePosition.eq_of_not_lt hlt hle)

lemma tableKeys_eq {tables : List WalTableKey} {es : List ReplayEntry}
    {live : List (TableIdent × Located α)} (h : List.Forall₂ (Matches tables) es live) :
    (es.filterMap fun en => tables[en.tableIndex]?) = live.map fun rc => keyOf rc.2.2 := by
  induction h with
  | nil => rfl
  | cons hmt _ ih => simp [hmt.table, ih]

/-- Whether replay reads the segments of a directory to their ends. -/
def Uncorrupted (codec : FrameCodec α) (files : WalDir) : Prop :=
  ∀ segment ∈ files.entries, segment.2.unreadable = none ∧
    (replayFrames codec segment.2.bytes).2.isCorrupt = false

lemma Uncorrupted.no_failure (h : Uncorrupted codec files) (mode : WalRecoveryMode)
    (env : ReplayEnv) : files.entries.findSome? (segmentFailure codec mode env) = none := by
  rw [List.findSome?_eq_none_iff]
  intro seg hseg
  obtain ⟨hrd, hcl⟩ := h seg hseg
  unfold segmentFailure
  rw [hrd]
  cases hstop : (replayFrames codec seg.2.bytes).2 with
  | clean => rfl
  | torn off => rfl
  | corrupt off reason =>
    rw [hstop] at hcl
    cases hcl

lemma Uncorrupted.replay_eq (hseqs : ∀ seq ∈ files.keys, seq ≤ u64Max)
    (h : Uncorrupted codec files) : replay codec committed mode env files =
      .ok ((liveRecords codec committed files.entries).insertionSort recordLe) := by
  rw [Replay.replay_eq, segmentPaths_eq hseqs, h.no_failure]

/-- Without corruption the plan yields the frames to be replayed, each once and in order, and its
table keys are those of their records. -/
theorem plan_yields_replayed (hseqs : ∀ seq ∈ files.keys, seq ≤ u64Max)
    (hclean : Uncorrupted codec files) (committed : CommittedMap) (mode : WalRecoveryMode)
    (env : ReplayEnv) :
    ∃ plan, prepare codec committed mode env files = .ok plan ∧ ∃ frames : List (Located α),
        collect codec env plan = .ok (frames.map Prod.snd) ∧
        frames.Pairwise Before ∧
        (∀ frame, frame ∈ frames ↔ Replayed committed (locateAll codec 0 files.entries) frame) ∧
        ∀ key, key ∈ plan.tableKeys ↔ ∃ frame ∈ frames, frame.2.header.tableKey = .ok key := by
  have hpre := prepare_eq codec committed mode env files
  rw [segmentPaths_eq hseqs, hclean.no_failure] at hpre
  obtain ⟨plan, hp, hsegs, hens⟩ := hpre
  have hsrt := @locateAll_sorted α codec 0 files.entries
  obtain ⟨hmem, hdis⟩ := liveFrames_spec committed hsrt
  set live := (liveFrames committed (locateAll codec 0 files.entries)).insertionSort locatedLe
    with hlive
  refine ⟨plan, hp, live.map Prod.snd, ?_, ?_, ?_, ?_⟩
  · rw [collect_eq hsegs hens, List.map_map]
    rfl
  · exact List.pairwise_map.mpr (sorted_before hdis)
  · intro frame
    rw [List.mem_map]
    constructor
    · rintro ⟨⟨tb, _⟩, hin, rfl⟩
      exact ((mem_liveFrames_iff hsrt).mp ((List.mem_insertionSort _).mp hin)).2
    · intro hfr
      exact ⟨(frame.2.header.table, frame),
        (List.mem_insertionSort _).mpr ((mem_liveFrames_iff hsrt).mpr ⟨rfl, hfr⟩), rfl⟩
  · intro key
    rw [ReplayPlan.tableKeys, tableKeys_eq hens, List.mem_map]
    have hkey : ∀ rc ∈ live, rc.2.2.header.tableKey = .ok (keyOf rc.2.2) := by
      intro rc hin
      obtain ⟨hfr, hop⟩ := hmem rc ((List.mem_insertionSort _).mp hin)
      obtain ⟨_, sg, _, _, hr⟩ := mem_locateAll hfr
      exact tableKey_eq (replayFrames_valid hr) hop
    constructor
    · rintro ⟨rc, hin, rfl⟩
      exact ⟨rc.2, List.mem_map_of_mem hin, hkey rc hin⟩
    · rintro ⟨_, hfr, heq⟩
      obtain ⟨rc, hin, rfl⟩ := List.mem_map.mp hfr
      rw [hkey rc hin] at heq
      exact ⟨rc, hin, Except.ok.inj heq⟩

/-- The bytes of a frame of the orders table. -/
def ordersFrame (record : WalRecord Nat) : List UInt8 :=
  (encodeFrame (ordersLib [0]) record).toOption.getD []

/-- One segment with a tombstone, an append and the first bytes of another append. -/
def ordersDir : WalDir :=
  OrdMap.empty.insert 7
    ⟨ordersFrame ordersDropped ++ ordersFrame oneRow ++ (ordersFrame oneRow).take 11, none⟩

lemma ordersDir_uncorrupted : Uncorrupted (ordersLib [0]).codec ordersDir := by
  unfold Uncorrupted
  decide +kernel

/-- The append behind the tombstone is replayed, and the torn one is not. -/
theorem orders_plan : (replay (ordersLib [0]).codec (fun _ => none) .fail ⟨"wal", fun _ => none⟩
        ordersDir).toOption = some [oneRow] ∧
      ∃ plan, prepare (ordersLib [0]).codec (fun _ => none) .fail ⟨"wal", fun _ => none⟩
          ordersDir = .ok plan ∧
        ∃ frames : List (Located Nat),
          collect (ordersLib [0]).codec ⟨"wal", fun _ => none⟩ plan = .ok (frames.map Prod.snd) ∧
          frames.Pairwise Before ∧
          (∀ frame, frame ∈ frames ↔
            Replayed (fun _ => none) (locateAll (ordersLib [0]).codec 0 ordersDir.entries) frame) ∧
          ∀ key, key ∈ plan.tableKeys ↔ ∃ frame ∈ frames, frame.2.header.tableKey = .ok key :=
  ⟨by decide +kernel, plan_yields_replayed (by decide) ordersDir_uncorrupted (fun _ => none) .fail
      ⟨"wal", fun _ => none⟩⟩

end Replay

end TeoDB.Storage.Wal

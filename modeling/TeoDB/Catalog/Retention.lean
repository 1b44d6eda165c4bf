import TeoDB.Catalog.Manifests
import TeoDB.Lib.StableSort

/-!
# Retained snapshots and the files they need

A retention policy keeps the current snapshot, the pinned ones, the most recent ones
and those that are young enough. The other snapshots of the history are expired. A
file is needed if a manifest of a retained snapshot records it, alive or not.

## Implementation notes

Durations are in nanoseconds and timestamps in milliseconds. The history is sorted by a stable
sort, so among equal timestamps the order of the metadata decides.
-/

namespace TeoDB.Catalog

open TeoDB.Core Lib Lib.StableSort

/-- The bounds of signed 64-bit values. -/
def i64Max : Int := 2 ^ 63 - 1

def i64Min : Int := -2 ^ 63

def saturatingSubI64 (a b : Int) : Int := max i64Min (min (a - b) i64Max)

structure SnapshotRetention where
  maxAge : Nat
  keepLast : Nat
deriving DecidableEq

/-- The greatest age in whole milliseconds. -/
def SnapshotRetention.maxAgeMs (retention : SnapshotRetention) : Int :=
  min (retention.maxAge / 1000000 : Nat) i64Max

/-- Select the expired snapshots among pairs of an identifier and a timestamp. -/
def selectExpiredSnapshots (snapshots : List (Int × Int)) (currentSnapshotId : Option Int)
    (retention : SnapshotRetention) (protectedIds : List Int) (nowMs : Int) : List Int :=
  let keepLast := max retention.keepLast 1
  let cutoffMs := saturatingSubI64 nowMs retention.maxAgeMs
  let byRecency := snapshots.insertionSort fun a b => b.2 ≤ a.2
  ((byRecency.drop keepLast).filter fun e =>
    e.2 < cutoffMs ∧ some e.1 ≠ currentSnapshotId ∧ e.1 ∉ protectedIds).map Prod.fst

section

variable {P : Type}

/-- Read a manifest unless it was read before, into the manifests read and the paths that they
record. -/
def collectManifest (read : List String × List String) (manifest : Manifest P) :
    List String × List String :=
  if read.1.contains manifest.manifestPath then read
  else (manifest.manifestPath :: read.1,
    read.2 ++ manifest.entries.map fun entry => entry.dataFile.filePath)

/-- The paths that the manifests of the included snapshots record. -/
def IcebergTable.collectReferencedPaths (t : IcebergTable P) (includeSnapshot : Int → Bool) :
    List String :=
  (t.snapshots.foldl (fun read snapshot =>
    if includeSnapshot snapshot.snapshotId then snapshot.manifestList.foldl collectManifest read
    else read) ([], [])).2

/-- The system clock in milliseconds; a clock before the epoch yields zero. -/
def clockMillis (clock : Int) : Int := if clock < 0 then 0 else min clock i64Max

structure RetainedFileSet where
  paths : List String
  retainedSnapshots : List Int
  expiredSnapshots : Nat
deriving DecidableEq

def IcebergTable.retainedFileSet (t : IcebergTable P) (retention : SnapshotRetention)
    (protectedIds : List Int) (clock : Int) : RetainedFileSet :=
  let history := t.snapshots.map fun s => (s.snapshotId, s.timestampMs)
  let expired := selectExpiredSnapshots history t.currentSnapshotId retention protectedIds
    (clockMillis clock)
  let retained := (history.map Prod.fst).filter fun id => id ∉ expired
  { paths := t.collectReferencedPaths fun id => retained.contains id
    retainedSnapshots := retained
    expiredSnapshots := expired.length }

end

section

variable {P : Type} {t : IcebergTable P}

/-- Some entry of the manifest records the path. -/
def Manifest.Records (manifest : Manifest P) (path : String) : Prop :=
  ∃ entry ∈ manifest.entries, entry.dataFile.filePath = path

/-- Some manifest of the snapshot records the path. -/
def IcebergSnapshot.Records (snapshot : IcebergSnapshot P) (path : String) : Prop :=
  ∃ manifest ∈ snapshot.manifestList, manifest.Records path

/-- Manifests are files: two of one path are the same. -/
def IcebergTable.ManifestsByPath (t : IcebergTable P) : Prop :=
  ∀ s ∈ t.snapshots, ∀ s' ∈ t.snapshots, ∀ m ∈ s.manifestList, ∀ m' ∈ s'.manifestList,
    m.manifestPath = m'.manifestPath → m = m'

/-- What was collected from the manifests that were seen. -/
structure Collected (manifests : List (Manifest P)) (read : List String × List String) : Prop where
  seen : ∀ path, path ∈ read.1 ↔ ∃ m ∈ manifests, m.manifestPath = path
  paths : ∀ path, path ∈ read.2 ↔ ∃ m ∈ manifests, m.Records path

lemma collected_nil : Collected ([] : List (Manifest P)) ([], []) := by
  constructor <;> simp

/-- A manifest that was read before adds nothing, and any other one adds its paths. -/
theorem Collected.manifest {mfs : List (Manifest P)} {read : List String × List String}
    (h : Collected mfs read) {m : Manifest P}
    (hs : ∀ m' ∈ mfs, m'.manifestPath = m.manifestPath → m' = m) :
    Collected (mfs ++ [m]) (collectManifest read m) := by
  unfold collectManifest
  split_ifs with hseen
  · obtain ⟨m', hm', hpath⟩ := (h.seen _).mp (by simpa using hseen)
    obtain rfl := hs m' hm' hpath
    have hmem : ∀ a, a ∈ mfs ++ [m'] ↔ a ∈ mfs := by
      intro a
      simp only [List.mem_append, List.mem_singleton, or_iff_left_iff_imp]
      rintro rfl
      exact hm'
    exact ⟨fun path => by simp only [h.seen, hmem], fun path => by simp only [h.paths, hmem]⟩
  · constructor
    · intro path
      simp only [List.mem_cons, h.seen, List.mem_append, List.not_mem_nil, or_false]
      constructor
      · rintro (rfl | ⟨a, ha, hp⟩)
        · exact ⟨m, .inr rfl, rfl⟩
        · exact ⟨a, .inl ha, hp⟩
      · rintro ⟨a, ha | rfl, hp⟩
        · exact .inr ⟨a, ha, hp⟩
        · exact .inl hp.symm
    · intro path
      simp only [List.mem_append, h.paths, List.mem_map, List.mem_singleton]
      constructor
      · rintro (⟨a, ha, hp⟩ | hen)
        · exact ⟨a, .inl ha, hp⟩
        · exact ⟨m, .inr rfl, hen⟩
      · rintro ⟨a, ha | rfl, hp⟩
        · exact .inl ⟨a, ha, hp⟩
        · exact .inr hp

lemma Collected.manifests {mfs : List (Manifest P)} {read : List String × List String}
    (h : Collected mfs read) (next : List (Manifest P))
    (hs : ∀ m ∈ mfs ++ next, ∀ m' ∈ mfs ++ next, m.manifestPath = m'.manifestPath → m = m') :
    Collected (mfs ++ next) (next.foldl collectManifest read) := by
  induction next generalizing mfs read with
  | nil => simpa using h
  | cons m rest ih =>
    have hstep : Collected (mfs ++ [m]) (collectManifest read m) :=
      h.manifest fun m' hm' => hs m' (by simp [hm']) m (by simp)
    have hrun := ih hstep (by simpa using hs)
    simpa using hrun

/-- The included snapshots of a list, with their manifests one after another. -/
def includedManifests (includeSnapshot : Int → Bool) (snapshots : List (IcebergSnapshot P)) :
    List (Manifest P) :=
  (snapshots.filter fun s => includeSnapshot s.snapshotId).flatMap IcebergSnapshot.manifestList

lemma collectReferencedPaths_eq (t : IcebergTable P) (includeSnapshot : Int → Bool) :
    t.collectReferencedPaths includeSnapshot =
      ((includedManifests includeSnapshot t.snapshots).foldl collectManifest ([], [])).2 := by
  unfold IcebergTable.collectReferencedPaths includedManifests
  rw [List.foldl_flatMap, List.foldl_filter]

/-- The collected paths are those that an included snapshot records. -/
theorem mem_collectReferencedPaths (hman : t.ManifestsByPath) {includeSnapshot : Int → Bool}
    {path : String} : path ∈ t.collectReferencedPaths includeSnapshot ↔
      ∃ s ∈ t.snapshots, includeSnapshot s.snapshotId = true ∧ s.Records path := by
  have hmem : ∀ m ∈ includedManifests includeSnapshot t.snapshots,
      ∃ s ∈ t.snapshots, m ∈ s.manifestList := by
    intro m hm
    obtain ⟨s, hs, hm⟩ := List.mem_flatMap.mp hm
    exact ⟨s, (List.mem_filter.mp hs).1, hm⟩
  have hcol := (collected_nil (P := P)).manifests
    (includedManifests includeSnapshot t.snapshots) fun m hm m' hm' heq => by
      obtain ⟨s, hs, hms⟩ := hmem m (by simpa using hm)
      obtain ⟨s', hs', hms'⟩ := hmem m' (by simpa using hm')
      exact hman s hs s' hs' m hms m' hms' heq
  rw [collectReferencedPaths_eq, hcol.paths, List.nil_append]
  simp only [includedManifests, List.mem_flatMap, List.mem_filter, IcebergSnapshot.Records]
  constructor
  · rintro ⟨m, ⟨s, ⟨hs, hinc⟩, hm⟩, hrecs⟩
    exact ⟨s, hs, hinc, m, hm, hrecs⟩
  · rintro ⟨s, hs, hinc, m, hm, hrecs⟩
    exact ⟨m, ⟨s, ⟨hs, hinc⟩, hm⟩, hrecs⟩

end

section

variable {P : Type} {t : IcebergTable P}

/-- The policy keeps a snapshot, given the most recent ones. -/
def SnapshotRetention.Keeps (retention : SnapshotRetention) (currentSnapshotId : Option Int)
    (pinned : List Int) (nowMs : Int) (newest : List (IcebergSnapshot P))
    (snapshot : IcebergSnapshot P) : Prop :=
  some snapshot.snapshotId = currentSnapshotId ∨ snapshot.snapshotId ∈ pinned ∨
    snapshot ∈ newest ∨ nowMs - snapshot.timestampMs ≤ retention.maxAgeMs

lemma maxAgeMs_bounds (retention : SnapshotRetention) :
    0 ≤ retention.maxAgeMs ∧ retention.maxAgeMs ≤ i64Max := by
  unfold SnapshotRetention.maxAgeMs i64Max
  omega

lemma clockMillis_bounds (clock : Int) : 0 ≤ clockMillis clock ∧ clockMillis clock ≤ i64Max := by
  unfold clockMillis i64Max
  split_ifs <;> omega

lemma cutoff_eq (retention : SnapshotRetention) (clock : Int) :
    saturatingSubI64 (clockMillis clock) retention.maxAgeMs =
      clockMillis clock - retention.maxAgeMs := by
  have hage := maxAgeMs_bounds retention
  have hclock := clockMillis_bounds clock
  unfold saturatingSubI64
  unfold i64Max at *
  unfold i64Min
  omega

/-- Snapshots from the most recent on, those of one time in the order of the metadata. -/
def IcebergTable.byRecency (t : IcebergTable P) : List (IcebergSnapshot P) :=
  t.snapshots.insertionSort fun a b => b.timestampMs ≤ a.timestampMs

lemma history_insertionSort (t : IcebergTable P) :
    ((t.snapshots.map fun s => (s.snapshotId, s.timestampMs)).insertionSort
      fun a b : Int × Int => b.2 ≤ a.2) =
      t.byRecency.map fun s => (s.snapshotId, s.timestampMs) := by
  apply (map_insertionSort _).symm
  exact List.pairwise_of_forall fun _ _ => Iff.rfl

/-- A snapshot is among the first ones by recency or behind them, and not both. -/
theorem mem_drop_byRecency (hnd : t.snapshots.Nodup) (k : Nat) {s : IcebergSnapshot P}
    (hs : s ∈ t.snapshots) : s ∈ t.byRecency.drop k ↔ s ∉ t.byRecency.take k := by
  have hp : t.byRecency.Perm t.snapshots := List.perm_insertionSort _ _
  have hmem : s ∈ t.byRecency.take k ++ t.byRecency.drop k := by
    rw [List.take_append_drop]
    exact hp.mem_iff.mpr hs
  have hdj : List.Disjoint (t.byRecency.take k) (t.byRecency.drop k) := by
    apply List.disjoint_of_nodup_append
    rw [List.take_append_drop]
    exact hp.nodup_iff.mpr hnd
  constructor
  · exact fun hd ht => hdj ht hd
  · exact fun ht => (List.mem_append.mp hmem).resolve_left ht

/-- The expired snapshots are those of the history that the policy does not keep. -/
theorem mem_selectExpiredSnapshots (hids : (t.snapshots.map IcebergSnapshot.snapshotId).Nodup)
    (retention : SnapshotRetention) (pinned : List Int) (clock : Int) {s : IcebergSnapshot P}
    (hs : s ∈ t.snapshots) : s.snapshotId ∈ selectExpiredSnapshots
        (t.snapshots.map fun s => (s.snapshotId, s.timestampMs)) t.currentSnapshotId retention
        pinned (clockMillis clock) ↔
      ¬ retention.Keeps t.currentSnapshotId pinned (clockMillis clock)
        (t.byRecency.take (max retention.keepLast 1)) s := by
  have hp : t.byRecency.Perm t.snapshots := List.perm_insertionSort _ _
  have hun : ∀ s' ∈ t.byRecency.drop (max retention.keepLast 1),
      s'.snapshotId = s.snapshotId → s' = s := fun s' hs' =>
    List.inj_on_of_nodup_map hids (hp.subset (List.mem_of_mem_drop hs')) hs
  have hd := mem_drop_byRecency (List.Nodup.of_map _ hids) (max retention.keepLast 1) hs
  simp only [selectExpiredSnapshots, history_insertionSort, cutoff_eq, List.map_drop.symm,
    List.mem_map, List.mem_filter, decide_eq_true_eq, SnapshotRetention.Keeps, not_or, ← hd]
  constructor
  · rintro ⟨_, ⟨⟨s', hs', rfl⟩, hold, hcur, hpin⟩, hid⟩
    obtain rfl := hun s' hs' hid
    exact ⟨hcur, hpin, hs', by omega⟩
  · rintro ⟨hcur, hpin, hs', hold⟩
    exact ⟨_, ⟨⟨s, hs', rfl⟩, by omega, hcur, hpin⟩, rfl⟩

section

variable (hids : (t.snapshots.map IcebergSnapshot.snapshotId).Nodup)
  (retention : SnapshotRetention) (pinned : List Int) (clock : Int)

/-- The policy keeps a snapshot of the table at the time of the clock. -/
def IcebergTable.Retains (t : IcebergTable P) (retention : SnapshotRetention) (pinned : List Int)
    (clock : Int) : IcebergSnapshot P → Prop :=
  retention.Keeps t.currentSnapshotId pinned (clockMillis clock)
    (t.byRecency.take (max retention.keepLast 1))

include hids

lemma mem_retainedSnapshots {id : Int} :
    id ∈ (t.retainedFileSet retention pinned clock).retainedSnapshots ↔
      ∃ s ∈ t.snapshots, s.snapshotId = id ∧ t.Retains retention pinned clock s := by
  simp only [IcebergTable.retainedFileSet, List.map_map, List.mem_filter, List.mem_map,
    decide_eq_true_eq, Function.comp_apply]
  constructor
  · rintro ⟨⟨s, hs, rfl⟩, hid⟩
    rw [mem_selectExpiredSnapshots hids retention pinned clock hs, not_not] at hid
    exact ⟨s, hs, rfl, hid⟩
  · rintro ⟨s, hs, rfl, hk⟩
    refine ⟨⟨s, hs, rfl⟩, ?_⟩
    rw [mem_selectExpiredSnapshots hids retention pinned clock hs, not_not]
    exact hk

lemma retainedSnapshots_contains {s : IcebergSnapshot P} (hs : s ∈ t.snapshots) :
    (t.retainedFileSet retention pinned clock).retainedSnapshots.contains s.snapshotId = true ↔
      t.Retains retention pinned clock s := by
  rw [List.contains_iff_mem, mem_retainedSnapshots hids]
  constructor
  · rintro ⟨s', hs', hid, hk⟩
    exact List.inj_on_of_nodup_map hids hs' hs hid ▸ hk
  · exact fun hk => ⟨s, hs, rfl, hk⟩

lemma mem_retainedPaths (hman : t.ManifestsByPath) {path : String} :
    path ∈ (t.retainedFileSet retention pinned clock).paths ↔
      ∃ s ∈ t.snapshots, t.Retains retention pinned clock s ∧ s.Records path := by
  refine (mem_collectReferencedPaths hman).trans (exists_congr fun s => and_congr_right ?_)
  exact fun hs => and_congr_left' (retainedSnapshots_contains hids retention pinned clock hs)

lemma expiredSnapshots_pos : 0 < (t.retainedFileSet retention pinned clock).expiredSnapshots ↔
      ∃ s ∈ t.snapshots, ¬ t.Retains retention pinned clock s := by
  simp only [IcebergTable.retainedFileSet, List.length_pos_iff_exists_mem]
  constructor
  · rintro ⟨id, hid⟩
    have hhist : id ∈ t.snapshots.map IcebergSnapshot.snapshotId := by
      obtain ⟨e, he, rfl⟩ := List.mem_map.mp hid
      have he := List.mem_of_mem_drop (List.mem_filter.mp he).1
      obtain ⟨s, hs, rfl⟩ := List.mem_map.mp ((List.mem_insertionSort _).mp he)
      exact List.mem_map_of_mem hs
    obtain ⟨s, hs, rfl⟩ := List.mem_map.mp hhist
    exact ⟨s, hs, (mem_selectExpiredSnapshots hids retention pinned clock hs).mp hid⟩
  · rintro ⟨s, hs, hexp⟩
    exact ⟨s.snapshotId, (mem_selectExpiredSnapshots hids retention pinned clock hs).mpr hexp⟩

end

end

end TeoDB.Catalog

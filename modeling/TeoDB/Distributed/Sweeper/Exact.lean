import TeoDB.Core.SnapshotPin
import TeoDB.Distributed.Sweeper

/-!
# What a sweep removes when nothing else runs

Alone on a table whose pins are all snapshots of its history, a sweep removes exactly
the objects under the data prefix that are old enough and whose key no retained
snapshot records. A pin on a snapshot that the history does not have stops every sweep
that has expired a snapshot.

## Implementation notes

The clock of the retention policy and that of the ages are read separately.
-/

namespace TeoDB.Distributed

open TeoDB.Core Lib Lib.Async Lib.StableSort Catalog Storage

structure QuietTable (P : Type) where
  table : IcebergTable P
  pins : List Int
  objects : OrdMap String Int
  clock : Int
  now : Int

section

variable {P : Type}

/-- The objects with a prefix. -/
def listObjects (objects : OrdMap String Int) (dataPrefix : String) : List ObjectMeta :=
  (objects.entries.map fun e => (⟨e.1, e.2⟩ : ObjectMeta)).filter fun object =>
    startsWith object.path dataPrefix

/-- Every call succeeds, and only deletes change something. -/
def quietAnswer (_ : Unit) (w : QuietTable P) :
    (c : SweepCall) → Option (SweepAnswer c × QuietTable P)
  | .expireStale => some (.ok 0, w)
  | .activeSnapshots => some (.ok w.pins, w)
  | .loadTable => some (icebergLocationToTeodb w.table.location, w)
  | .loadAllReferencedFilePaths => some (.ok (w.table.collectReferencedPaths fun _ => true), w)
  | .loadRetainedFilePaths retention protectedIds =>
    some (.ok (w.table.retainedFileSet retention protectedIds w.clock), w)
  | .list dataPrefix => some (.ok (listObjects w.objects dataPrefix), w)
  | .now => some (w.now, w)
  | .delete path => some (.ok (), { w with objects := w.objects.erase path })

def quiet (P : Type) : Setting sweepInterface (QuietTable P) :=
  .alone (possible (I := sweepInterface) (C := Unit) quietAnswer)

lemma quiet_call {α : Type} {Q : Except TeoDBError α → QuietTable P → Prop} {w w' : QuietTable P}
    {c : SweepCall} {a : SweepAnswer c} {k : SweepAnswer c → SweepProg (QuietTable P) α}
    (han : quietAnswer () w c = some (a, w')) (h : wp (quiet P) Q (k a) w') :
    wp (quiet P) Q (Async.request (I := sweepInterface) c >>= k) w := by
  refine wp_alone_request_bind.mpr ?_
  rintro b s ⟨_, hb⟩
  obtain ⟨rfl, rfl⟩ := Prod.mk.inj (Option.some.inj (han.symm.trans hb))
  exact h

/-- The program ends with the value and leaves the table as it is. -/
def Gives {α : Type} (w : QuietTable P) (p : SweepProg (QuietTable P) α) (a : α) : Prop :=
  wp (quiet P) (fun r w' => r = .ok a ∧ w' = w) p w

lemma Gives.bind {α β : Type} {w : QuietTable P} {p : SweepProg (QuietTable P) α} {a : α}
    {Q : Except TeoDBError β → QuietTable P → Prop} {k : α → SweepProg (QuietTable P) β}
    (h : Gives w p a) (hk : wp (quiet P) Q (k a) w) : wp (quiet P) Q (p >>= k) w := by
  refine wp_bind.mpr (wp_mono ?_ h)
  rintro _ _ ⟨rfl, rfl⟩
  exact hk

variable (sweeper : OrphanSweeper) (w : QuietTable P)

lemma activePins_gives : Gives w activePins w.pins :=
  quiet_call rfl (quiet_call rfl ⟨rfl, rfl⟩)

/-- What a sweep protects. -/
def QuietTable.protectedFiles : ProtectedFiles :=
  match sweeper.retention with
  | none => ⟨(w.table.collectReferencedPaths fun _ => true).map referencedKey, [], 0⟩
  | some retention =>
    let retained := w.table.retainedFileSet retention w.pins w.clock
    ⟨retained.paths.map referencedKey, retained.retainedSnapshots, retained.expiredSnapshots⟩

lemma collectProtectedFiles_gives :
    Gives w (collectProtectedFiles sweeper w.pins) (w.protectedFiles sweeper) := by
  unfold collectProtectedFiles QuietTable.protectedFiles
  cases sweeper.retention with
  | none => exact quiet_call rfl ⟨rfl, rfl⟩
  | some ret => exact quiet_call rfl ⟨rfl, rfl⟩

lemma listDataObjects_gives {loc : ObjectLocation} (h : loc.Normal) :
    Gives w (listDataObjects loc.toUri)
      (dataPrefixOf loc.key, listObjects w.objects (dataPrefixOf loc.key)) := by
  unfold listDataObjects
  rw [ObjectLocation.parse_toUri h]
  exact quiet_call rfl ⟨rfl, rfl⟩

/-- A sweep that has expired a snapshot does not accept a pin outside the retained ones. -/
def QuietTable.refuses : Bool :=
  decide (0 < (w.protectedFiles sweeper).expiredSnapshots) &&
    w.pins.any fun id => !(w.protectedFiles sweeper).retainedSnapshots.contains id

lemma pinsChangedDuringSweep_gives :
    Gives w (pinsChangedDuringSweep (w.protectedFiles sweeper)) (w.refuses sweeper) := by
  unfold pinsChangedDuringSweep QuietTable.refuses
  by_cases hexp : 0 < (w.protectedFiles sweeper).expiredSnapshots
  · rw [if_pos hexp, decide_eq_true hexp, Bool.true_and]
    exact quiet_call rfl ⟨rfl, rfl⟩
  · rw [if_neg hexp, decide_eq_false hexp, Bool.false_and]
    exact ⟨rfl, rfl⟩

lemma deleteEach_erases (isOrphan : ObjectMeta → Bool) (objs : List ObjectMeta) :
    wp (quiet P) (fun r w' => (∃ del, r = .ok del) ∧ w' = { w with
      objects := ((objs.filter isOrphan).map ObjectMeta.path).foldl OrdMap.erase w.objects })
      (deleteEach isOrphan objs) w := by
  induction objs generalizing w with
  | nil => exact ⟨⟨0, rfl⟩, rfl⟩
  | cons obj rest ih =>
    unfold deleteEach
    by_cases horp : isOrphan obj = true
    · rw [if_pos horp, List.filter_cons_of_pos horp]
      have hdel : quietAnswer () w (.delete obj.path) =
          some (.ok (), { w with objects := w.objects.erase obj.path }) := rfl
      refine quiet_call hdel ?_
      refine wp_bind.mpr (wp_mono ?_ (ih { w with objects := w.objects.erase obj.path }))
      rintro _ _ ⟨⟨del, rfl⟩, rfl⟩
      exact ⟨⟨del + 1, rfl⟩, rfl⟩
    · rw [if_neg horp, List.filter_cons_of_neg horp]
      exact ih w

lemma deleteCandidates_erases (dataPrefix : String) (objs : List ObjectMeta)
    (keys : List String) :
    wp (quiet P) (fun r w' => (∃ del, r = .ok del) ∧ w' = { w with
      objects := ((objs.filter (isCandidate sweeper.minAge dataPrefix keys w.now)).map
        ObjectMeta.path).foldl OrdMap.erase w.objects })
      (deleteCandidates sweeper dataPrefix objs keys) w := by
  unfold deleteCandidates callNow
  exact quiet_call rfl (deleteEach_erases w _ objs)

/-- The keys that a sweep deletes. -/
def QuietTable.orphans (location : ObjectLocation) : List String :=
  ((listObjects w.objects (dataPrefixOf location.key)).filter
    (isCandidate sweeper.minAge (dataPrefixOf location.key) (w.protectedFiles sweeper).keys
      w.now)).map ObjectMeta.path

/-- The store after a sweep. -/
def QuietTable.swept (location : ObjectLocation) : OrdMap String Int :=
  if w.refuses sweeper then w.objects
  else (w.orphans sweeper location).foldl OrdMap.erase w.objects

lemma sweep_swept {loc : ObjectLocation}
    (hloc : icebergLocationToTeodb w.table.location = .ok loc) :
    wp (quiet P) (fun r w' => (∃ report, r = .ok report) ∧
      w' = { w with objects := w.swept sweeper loc }) (sweep sweeper) w := by
  have hld : quietAnswer () w .loadTable = some (.ok loc, w) := by
    rw [← hloc]
    rfl
  refine (activePins_gives w).bind (quiet_call hld ?_)
  refine (collectProtectedFiles_gives sweeper w).bind ?_
  refine (listDataObjects_gives w (icebergLocationToTeodb_normal hloc)).bind ?_
  refine (pinsChangedDuringSweep_gives sweeper w).bind ?_
  unfold QuietTable.swept
  cases hrefuses : w.refuses sweeper with
  | true => exact ⟨⟨_, rfl⟩, rfl⟩
  | false =>
    refine wp_bind.mpr (wp_mono ?_ (deleteCandidates_erases sweeper w _ _ _))
    rintro _ _ ⟨⟨deleted, rfl⟩, rfl⟩
    exact ⟨⟨_, rfl⟩, rfl⟩

end

section

variable {P : Type} {sweeper : OrphanSweeper} {w : QuietTable P}

/-- The policy of the sweeper, if it has one, keeps the snapshot. `newest` gives the most
recent snapshots. -/
def QuietTable.Retained (w : QuietTable P) (sweeper : OrphanSweeper)
    (newest : Nat → List (IcebergSnapshot P)) (snapshot : IcebergSnapshot P) : Prop :=
  ∀ retention ∈ sweeper.retention, retention.Keeps w.table.currentSnapshotId w.pins
    (clockMillis w.clock) (newest (max retention.keepLast 1)) snapshot

/-- Every pin is on a snapshot of the history, or no snapshot is expired. -/
def QuietTable.PinsKnown (w : QuietTable P) (sweeper : OrphanSweeper)
    (newest : Nat → List (IcebergSnapshot P)) : Prop :=
  (∃ s ∈ w.table.snapshots, ¬ w.Retained sweeper newest s) →
    ∀ pin ∈ w.pins, ∃ s ∈ w.table.snapshots, s.snapshotId = pin

/-- An old object under the data prefix whose key no retained snapshot records. -/
structure QuietTable.Orphaned (w : QuietTable P) (sweeper : OrphanSweeper)
    (newest : Nat → List (IcebergSnapshot P)) (location : ObjectLocation) (key : String)
    (lastModified : Int) : Prop where
  underData : startsWith key (dataPrefixOf location.key) = true
  old : sweeper.minAge ≤ ageOf w.now lastModified
  unrecorded : ∀ s ∈ w.table.snapshots, w.Retained sweeper newest s →
    ∀ path, s.Records path → referencedKey path ≠ key

section

/-- The most recent snapshots as the policy takes them. -/
def QuietTable.newest (w : QuietTable P) (k : Nat) : List (IcebergSnapshot P) :=
  w.table.byRecency.take k

section

variable (hids : (w.table.snapshots.map IcebergSnapshot.snapshotId).Nodup)

include hids

lemma mem_protectedKeys (hman : w.table.ManifestsByPath) {key : String} :
    key ∈ (w.protectedFiles sweeper).keys ↔ ∃ s ∈ w.table.snapshots,
      w.Retained sweeper w.newest s ∧ ∃ path, s.Records path ∧ referencedKey path = key := by
  unfold QuietTable.protectedFiles QuietTable.Retained
  cases sweeper.retention with
  | none =>
    simp only [List.mem_map, mem_collectReferencedPaths hman]
    constructor
    · rintro ⟨path, ⟨s, hs, _, hrecs⟩, rfl⟩
      exact ⟨s, hs, (by simp), path, hrecs, rfl⟩
    · rintro ⟨s, hs, _, path, hrecs, rfl⟩
      exact ⟨path, ⟨s, hs, trivial, hrecs⟩, rfl⟩
  | some ret =>
    simp only [List.mem_map, mem_retainedPaths hids ret w.pins w.clock hman]
    constructor
    · rintro ⟨path, ⟨s, hs, hret, hrecs⟩, rfl⟩
      refine ⟨s, hs, ?_, path, hrecs, rfl⟩
      rintro _ ⟨⟩
      exact hret
    · rintro ⟨s, hs, hret, path, hrecs, rfl⟩
      exact ⟨path, ⟨s, hs, hret ret rfl, hrecs⟩, rfl⟩

/-- A sweep is refused exactly if the pins are not all known. -/
theorem refuses_eq_false_iff : w.refuses sweeper = false ↔ w.PinsKnown sweeper w.newest := by
  unfold QuietTable.refuses QuietTable.PinsKnown QuietTable.protectedFiles QuietTable.Retained
  cases sweeper.retention with
  | none => simp
  | some ret =>
    have hexp := expiredSnapshots_pos hids ret w.pins w.clock
    have hret : ∀ pin ∈ w.pins, pin ∈ (w.table.retainedFileSet ret w.pins
        w.clock).retainedSnapshots ↔ ∃ s ∈ w.table.snapshots, s.snapshotId = pin := by
      intro pin hpin
      rw [mem_retainedSnapshots hids]
      constructor
      · rintro ⟨s, hs, hid, _⟩
        exact ⟨s, hs, hid⟩
      · rintro ⟨s, hs, hid⟩
        exact ⟨s, hs, hid, .inr (.inl (hid ▸ hpin))⟩
    simp only [Bool.and_eq_false_imp, decide_eq_true_eq, hexp, List.any_eq_false,
      Bool.not_eq_true', Bool.not_eq_false, List.contains_iff_mem, Option.mem_some_iff,
      forall_eq']
    exact imp_congr_right fun _ => forall₂_congr hret

/-- The keys that a sweep deletes are those of orphaned objects. -/
theorem mem_orphans_iff (hman : w.table.ManifestsByPath) {loc : ObjectLocation} {key : String}
    {lm : Int} (h : w.objects.find? key = some lm) :
    key ∈ w.orphans sweeper loc ↔ w.Orphaned sweeper w.newest loc key lm := by
  have hen := (w.objects.find?_eq_some_iff key lm).mp h
  have hcan : isCandidate sweeper.minAge (dataPrefixOf loc.key)
      (w.protectedFiles sweeper).keys w.now ⟨key, lm⟩ = true ↔
      w.Orphaned sweeper w.newest loc key lm := by
    simp only [isCandidate, Bool.and_eq_true, Bool.not_eq_true', List.contains_eq_mem,
      decide_eq_false_iff_not, not_lt, mem_protectedKeys hids hman]
    constructor
    · rintro ⟨⟨hk, hbl⟩, hold⟩
      refine ⟨hbl, hold, fun s hs hret path hrecs heq => hk ?_⟩
      exact ⟨s, hs, hret, path, hrecs, heq⟩
    · rintro ⟨hbl, hold, hk⟩
      refine ⟨⟨?_, hbl⟩, hold⟩
      rintro ⟨s, hs, hret, path, hrecs, heq⟩
      exact hk s hs hret path hrecs heq
  rw [← hcan]
  simp only [QuietTable.orphans, listObjects, List.mem_map, List.mem_filter]
  constructor
  · rintro ⟨_, ⟨⟨⟨e, he, rfl⟩, _⟩, hche⟩, rfl⟩
    have heq : e.2 = lm := w.objects.eq_of_mem_entries he hen
    subst heq
    exact hche
  · intro hche
    refine ⟨⟨key, lm⟩, ⟨⟨⟨(key, lm), hen, rfl⟩, ?_⟩, hche⟩, rfl⟩
    simp only [isCandidate, Bool.and_eq_true] at hche
    exact hche.1.2

end

end

/-- A sweep in which everything succeeds removes an object exactly if it is orphaned and all pins
are known. -/
theorem sweep_removes_orphans (sweeper : OrphanSweeper) (w : QuietTable P)
    {location : ObjectLocation}
    (hlocation : icebergLocationToTeodb w.table.location = .ok location)
    (hids : (w.table.snapshots.map IcebergSnapshot.snapshotId).Nodup)
    (hmanifests : w.table.ManifestsByPath) :
    ∃ newest : Nat → List (IcebergSnapshot P),
      (∀ k, Top k IcebergSnapshot.timestampMs w.table.snapshots (newest k)) ∧
      ∃ choices report w', (sweep sweeper).run (I := sweepInterface) quietAnswer w choices =
          some (.ok report, w') ∧
        ∀ key lastModified, w.objects.find? key = some lastModified →
          (w'.objects.find? key = none ↔ w.PinsKnown sweeper newest ∧
            w.Orphaned sweeper newest location key lastModified) := by
  refine ⟨w.newest, fun k => top_take_insertionSort k _ _, ?_⟩
  have htotal : ∀ (w : QuietTable P) (c : SweepCall), ∃ ch a w',
      quietAnswer ch w c = some (a, w') := by
    intro w c
    cases c <;> exact ⟨(), _, _, rfl⟩
  obtain ⟨choices, r, w', hrun⟩ := exists_run (I := sweepInterface) htotal (sweep sweeper) w
  obtain ⟨⟨report, rfl⟩, rfl⟩ := wp_run (I := sweepInterface) (sweep_swept sweeper w hlocation) hrun
  refine ⟨choices, report, _, hrun, fun key lastModified hkey => ?_⟩
  rw [← refuses_eq_false_iff hids, ← mem_orphans_iff hids hmanifests hkey]
  simp only [QuietTable.swept]
  cases hrefuses : w.refuses sweeper with
  | true => simp [hkey]
  | false => simpa using w.objects.find?_foldl_erase_eq_none _ hkey

end

section

variable {P : Type} {sweeper : OrphanSweeper} {w : QuietTable P}

/-- A sweep leaves every object that a snapshot records which a query has pinned and not released.
-/
theorem sweep_keeps_pinned_files {calls : List PinCall} {pin : Pin} {location : ObjectLocation}
    (hpins : w.pins = (PinState.after calls).activeSnapshots pin.table)
    (hlocation : icebergLocationToTeodb w.table.location = .ok location)
    (hids : (w.table.snapshots.map IcebergSnapshot.snapshotId).Nodup)
    (hmanifests : w.table.ManifestsByPath) {choices : List Unit} {r : Except TeoDBError SweepReport}
    {w' : QuietTable P}
    (hrun : (sweep sweeper).run (I := sweepInterface) quietAnswer w choices = some (r, w'))
    (hpin : pin ∈ outstanding calls) {snapshot : IcebergSnapshot P}
    (hsnapshot : snapshot ∈ w.table.snapshots) (hid : snapshot.snapshotId = pin.snapshotId)
    {path : String} (hpath : snapshot.Records path) :
    w'.objects.find? (referencedKey path) = w.objects.find? (referencedKey path) := by
  obtain ⟨_, rfl⟩ := wp_run (I := sweepInterface) (sweep_swept sweeper w hlocation) hrun
  have hret : w.Retained sweeper w.newest snapshot := by
    intro ret _
    refine .inr (.inl ?_)
    rw [hpins, hid]
    exact PinState.mem_activeSnapshots hpin
  simp only [QuietTable.swept]
  split_ifs
  · rfl
  · refine w.objects.find?_foldl_erase fun key hkey heq => ?_
    subst heq
    obtain ⟨obj, hobj, hkey'⟩ := List.mem_map.mp hkey
    obtain ⟨e, he, rfl⟩ := List.mem_map.mp (List.mem_filter.mp (List.mem_filter.mp hobj).1).1
    have horp := (mem_orphans_iff hids hmanifests
      ((w.objects.find?_eq_some_iff _ e.2).mpr (hkey' ▸ he))).mp hkey
    exact horp.unrecorded snapshot hsnapshot hret path hpath rfl

end

def sweptSnapshot (id timestampMs : Int) (file : String) : IcebergSnapshot Unit where
  snapshotId := id
  parentSnapshotId := none
  timestampMs := timestampMs
  summary := OrdMap.empty
  manifestList :=
    [⟨file ++ ".avro", 0, [⟨true, ⟨.data, "s3://lake/orders/data/" ++ file, (), 1, 10⟩⟩]⟩]

/-- Two snapshots with a file of their own, and a file that neither of them records. -/
def sweptOrders (pins : List Int) : QuietTable Unit where
  table := ⟨Uuid.ofNat 7, "s3://lake/orders", some 2,
    [sweptSnapshot 1 1000 "a", sweptSnapshot 2 900000 "b"], OrdMap.empty⟩
  pins := pins
  objects := OrdMap.empty.insertAll
    [("orders/data/a", 0), ("orders/data/b", 0), ("orders/data/c", 0)]
  clock := 1000000
  now := 1000000000000

/-- Keep the last snapshot and what is at most a minute old. -/
def minuteSweeper : OrphanSweeper := ⟨1000000000, some ⟨60000000000, 1⟩⟩

/-- The outcome of a sweep that runs alone: its report and the keys that are left. -/
def quietOutcome (sweeper : OrphanSweeper) (w : QuietTable Unit) (calls : Nat) :
    Option (Option SweepReport × List String) :=
  ((sweep sweeper).run (I := sweepInterface) quietAnswer w (List.replicate calls ())).map
    fun r => (r.1.toOption, r.2.objects.keys)

theorem sweep_removes_orphans_expiredSnapshot :
    quietOutcome minuteSweeper (sweptOrders [2]) 9 = some (some ⟨3, 2, 1⟩, ["orders/data/b"]) ∧
    ∃ newest : Nat → List (IcebergSnapshot Unit),
      (∀ k, Top k IcebergSnapshot.timestampMs (sweptOrders [2]).table.snapshots (newest k)) ∧
      ∃ choices report w', (sweep minuteSweeper).run (I := sweepInterface) quietAnswer
          (sweptOrders [2]) choices = some (.ok report, w') ∧
        ∀ key lastModified, (sweptOrders [2]).objects.find? key = some lastModified →
          (w'.objects.find? key = none ↔ (sweptOrders [2]).PinsKnown minuteSweeper newest ∧
            (sweptOrders [2]).Orphaned minuteSweeper newest ⟨.s3, some "lake", "orders"⟩ key
              lastModified) := by
  constructor
  · decide +kernel
  · apply sweep_removes_orphans minuteSweeper (sweptOrders [2])
    · decide +kernel
    · decide +kernel
    · unfold IcebergTable.ManifestsByPath
      decide +kernel

/-- A pin on a snapshot that the history does not have: nothing is removed, although the third
object is an orphan. -/
theorem sweep_stopped_by_unknown_pin :
    quietOutcome minuteSweeper (sweptOrders [99]) 9 = some (some ⟨3, 0, 3⟩,
      ["orders/data/a", "orders/data/b", "orders/data/c"]) ∧
    startsWith "orders/data/c" (dataPrefixOf "orders") = true ∧
    minuteSweeper.minAge ≤ ageOf (sweptOrders [99]).now 0 ∧
    ∀ s ∈ (sweptOrders [99]).table.snapshots, ∀ manifest ∈ s.manifestList,
      ∀ entry ∈ manifest.entries, referencedKey entry.dataFile.filePath ≠ "orders/data/c" := by
  refine ⟨?_, ?_, ?_, ?_⟩
  · decide +kernel
  · decide +kernel
  · decide +kernel
  · decide +kernel

theorem sweep_keeps_pinned_files_orders :
    ∃ r w', (sweep minuteSweeper).run (I := sweepInterface) quietAnswer (sweptOrders [1])
        (List.replicate 9 ()) = some (r, w') ∧ w'.objects.find? "orders/data/a" = some 0 := by
  obtain ⟨⟨r, w'⟩, hrun⟩ := Option.isSome_iff_exists.mp (by decide +kernel :
    ((sweep minuteSweeper).run (I := sweepInterface) quietAnswer (sweptOrders [1])
      (List.replicate 9 ())).isSome = true)
  have hman : (sweptOrders [1]).table.ManifestsByPath := by
    unfold IcebergTable.ManifestsByPath
    decide +kernel
  have hpin : ⟨Uuid.ofNat 3, ⟨"lake", "orders"⟩, 1⟩ ∈
      outstanding [.pin (Uuid.ofNat 3) ⟨"lake", "orders"⟩ 1] := by simp [outstanding]
  have hloc : icebergLocationToTeodb (sweptOrders [1]).table.location =
      .ok ⟨.s3, some "lake", "orders"⟩ := by decide +kernel
  have hkept := sweep_keeps_pinned_files (by decide +kernel) hloc (by decide +kernel) hman hrun
    hpin List.mem_cons_self rfl ⟨_, List.mem_cons_self, _, List.mem_cons_self, rfl⟩
  exact ⟨r, w', hrun, hkept.trans (by decide +kernel)⟩

end TeoDB.Distributed

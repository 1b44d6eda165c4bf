import TeoDB.Lib.SnapshotFile
import TeoDB.Storage.Wal.PreparedJson

/-!
# The committed checkpoint

The cutoffs of all table incarnations are kept in memory and in a file. A commit raises
the cutoff of one incarnation and a drop forgets those of a table name. Each call then takes
the lock of the file, copies the map and replaces the file.

The calls are an instance of `SnapshotFile`.

## Implementation notes

The map in memory is ordered as the entries of the file are. A drop first appends its tombstone to
the log, and the call ends there if that fails. Persisting succeeds.
-/

namespace TeoDB.Storage.Wal

open TeoDB.Core Lib Lib.MachineInt

/-- The order of the entries in the file. -/
instance : LinearOrder WalTableKey :=
  LinearOrder.lift'
    (fun key => toLex (key.ident.nameSpace, toLex (key.ident.name, key.tableUuid)))
    (by
      rintro ⟨_, _, _⟩ ⟨_, _, _⟩ h
      simp only [EmbeddingLike.apply_eq_iff_eq, Prod.mk.injEq] at h
      simp [h])

abbrev CommittedGenerations := OrdMap WalTableKey Nat

structure CheckpointEntry where
  nameSpace : String
  name : String
  tableUuid : Uuid
  generation : Nat
deriving DecidableEq

structure CommittedCheckpoint where
  version : Nat
  entries : List CheckpointEntry
deriving DecidableEq

def checkpointVersion : Nat := 1

namespace Wire

open Storage.Wire

def checkpointEntry : Serde CheckpointEntry :=
  .record
    (.cons "namespace" .string <| .cons "name" .string <| .cons "table_uuid" uuid <|
      .cons "generation" (.natTo u64Max) .nil)
    (by simp) false
    { toFun := fun e => (e.nameSpace, e.name, e.tableUuid, e.generation, ())
      invFun := fun (nameSpace, name, tableUuid, generation, _) =>
        ⟨nameSpace, name, tableUuid, generation⟩ }

def committedCheckpoint : Serde CommittedCheckpoint :=
  .record (.cons "version" (.natTo 65535) <| .cons "entries" (.list checkpointEntry) .nil)
    (by simp) true
    { toFun := fun c => (c.version, c.entries, ())
      invFun := fun (version, entries, _) => ⟨version, entries⟩ }

end Wire

namespace Checkpoint

def toEntry (entry : WalTableKey × Nat) : CheckpointEntry :=
  ⟨entry.1.ident.nameSpace, entry.1.ident.name, entry.1.tableUuid, entry.2⟩

/-- The text that is written for a map. -/
def persistText (text : JsonText) (committed : CommittedGenerations) : text.Text :=
  text.pretty (Wire.committedCheckpoint.ser ⟨checkpointVersion, committed.entries.map toEntry⟩)

/-- Check an entry and put it into the map. -/
def loadEntry (committed : CommittedGenerations) (entry : CheckpointEntry) :
    TeoDBResult CommittedGenerations :=
  if entry.tableUuid.isNil then
    .error (walError "committed checkpoint contains a nil table UUID")
  else if entry.nameSpace.isEmpty ∨ entry.name.isEmpty then
    .error (walError "committed checkpoint contains an empty table identifier")
  else
    let key : WalTableKey := ⟨entry.tableUuid, ⟨entry.nameSpace, entry.name⟩⟩
    if (committed.find? key).isSome then
      .error (walError "committed checkpoint contains a duplicate table incarnation")
    else .ok (committed.insert key entry.generation)

/-- Load the map from what reading the file gave. -/
def loadCommittedCheckpoint (text : JsonText) :
    Except String (Option text.Text) → TeoDBResult CommittedGenerations
  | .error error => .error (.wal "read committed checkpoint" (some error))
  | .ok none => .ok .empty
  | .ok (some data) =>
    match text.parse data >>= Wire.committedCheckpoint.de with
    | .error error => .error (.wal "committed checkpoint is corrupt" (some error))
    | .ok checkpoint =>
      if checkpoint.version ≠ checkpointVersion then
        .error (walError s!"unsupported committed checkpoint version {checkpoint.version}")
      else checkpoint.entries.foldlM loadEntry .empty

/-- An entry that is accepted when it is read. -/
structure Storable (entry : WalTableKey × Nat) : Prop where
  uuid : entry.1.tableUuid.isNil = false
  nameSpace : entry.1.ident.nameSpace ≠ ""
  name : entry.1.ident.name ≠ ""
  generation : entry.2 ≤ u64Max

lemma loadEntry_eq {cm : CommittedGenerations} {en : WalTableKey × Nat}
    (h : Storable en) (hnew : cm.find? en.1 = none) :
    loadEntry cm (toEntry en) = .ok (cm.insert en.1 en.2) := by
  have hu : ¬ (toEntry en).tableUuid.isNil = true := by
    rw [toEntry, h.uuid]
    exact Bool.false_ne_true
  have hnames : ¬ ((toEntry en).nameSpace.isEmpty = true ∨ (toEntry en).name.isEmpty = true) := by
    simp [toEntry, String.isEmpty_iff, h.nameSpace, h.name]
  rw [loadEntry, if_neg hu, if_neg hnames]
  simp [toEntry, hnew]

/-- Entries with distinct keys are read one after another. -/
lemma foldlM_loadEntry {es : List (WalTableKey × Nat)} (h : ∀ e ∈ es, Storable e)
    (hnd : (es.map Prod.fst).Nodup) {cm : CommittedGenerations}
    (hnew : ∀ e ∈ es, cm.find? e.1 = none) :
    (es.map toEntry).foldlM loadEntry cm = .ok (cm.insertAll es) := by
  induction es generalizing cm with
  | nil => rfl
  | cons en rest ih =>
    obtain ⟨hen, hr⟩ := List.forall_mem_cons.mp h
    obtain ⟨hfr, hneR⟩ := List.forall_mem_cons.mp hnew
    obtain ⟨hnot, hnd⟩ := List.nodup_cons.mp hnd
    rw [List.map_cons, List.foldlM_cons, loadEntry_eq hen hfr]
    apply ih hr hnd
    intro o hot
    have hne : o.1 ≠ en.1 := fun heq => hnot (heq ▸ List.mem_map_of_mem hot)
    rw [OrdMap.find?_insert, if_neg hne]
    exact hneR o hot

lemma load_persistText (text : JsonText) {cm : CommittedGenerations}
    (h : ∀ e ∈ cm.entries, Storable e) :
    loadCommittedCheckpoint text (.ok (some (persistText text cm))) = .ok cm := by
  have hf : Wire.committedCheckpoint.Fits ⟨checkpointVersion, cm.entries.map toEntry⟩ := by
    have hver : checkpointVersion ≤ 65535 := by decide
    refine ⟨hver, List.forall_mem_map.mpr ?_, trivial⟩
    intro en hen
    exact ⟨trivial, trivial, trivial, (h en hen).generation, trivial⟩
  have hr : (text.parse (persistText text cm) >>= Wire.committedCheckpoint.de) =
      .ok ⟨checkpointVersion, cm.entries.map toEntry⟩ := by
    rw [persistText, text.parse_pretty]
    exact (Wire.committedCheckpoint.de_ser_iff _).mpr hf
  simp only [loadCommittedCheckpoint, hr, ne_eq, not_true_eq_false, if_false]
  rw [foldlM_loadEntry h cm.keys_nodup fun _ _ => OrdMap.find?_empty _, OrdMap.insertAll_entries]

/-- How a call changes the map. -/
inductive Update where
  | markCommitted (table : WalTableKey) (generation : Nat)
  | forgetTable (table : TableIdent)
deriving DecidableEq

def Update.apply : Update → CommittedGenerations → CommittedGenerations
  | .markCommitted table generation, committed =>
    committed.insert table
      (match committed.find? table with
      | some current => max current generation
      | none => generation)
  | .forgetTable table, committed => committed.retain fun key => key.ident ≠ table

/-- Concurrent calls of `mark_committed` and `append_drop_tombstone`. -/
def protocol (text : JsonText) : SnapshotFile.Protocol Update CommittedGenerations text.Text where
  apply := Update.apply
  write := persistText text

/-- When a call has returned, the file has its change and those of all calls that have returned, and
is read back as it was written. -/
theorem checkpoint_never_stale (text : JsonText) :
    (∀ s, (SnapshotFile.machine (protocol text)).Reachable s → ∀ c n u,
      s.phase c = .returned u n → ∃ k ≤ s.updates.length,
        s.file = some (persistText text ((protocol text).after s.initial (s.updates.take k))) ∧
        ∀ d m v, s.phase d = .returned v m → m < k ∧ s.updates[m]? = some v) ∧
      ∀ committed : CommittedGenerations, (∀ e ∈ committed.entries, Storable e) →
        loadCommittedCheckpoint text (.ok (some (persistText text committed))) = .ok committed := by
  constructor
  · intro s run c n u hc
    obtain ⟨k, ⟨hk, hf⟩, hall⟩ := SnapshotFile.reflects_returned (protocol text) run hc
    exact ⟨k, hk, hf, hall⟩
  · intro committed h
    exact load_persistText text h

def ordersKey : WalTableKey := ⟨Uuid.ofNat 1, ⟨"sales", "orders"⟩⟩

def refundsKey : WalTableKey := ⟨Uuid.ofNat 2, ⟨"sales", "refunds"⟩⟩

/-- No cutoffs, no file and no calls. -/
def quiet : SnapshotFile.State Update CommittedGenerations JsonText.tree.Text :=
  ⟨.empty, .empty, [], none, fun _ => .idle, none⟩

lemma quiet_start : (SnapshotFile.machine (protocol .tree)).start quiet :=
  ⟨rfl, rfl, rfl, fun _ => rfl⟩

/-- Two commits change the map before the second one takes the lock first. -/
def overtaking : List (SnapshotFile.Label Update) :=
  [.ask 0 (.markCommitted ordersKey 3), .update 0, .ask 1 (.markCommitted refundsKey 5), .update 1,
    .acquire 1, .snapshot 1, .replace 1, .release 1,
    .acquire 0, .snapshot 0, .replace 0, .release 0]

/-- The map after both commits. -/
def bothCutoffs : CommittedGenerations := (OrdMap.empty.insert ordersKey 3).insert refundsKey 5

lemma bothCutoffs_storable : ∀ e ∈ bothCutoffs.entries, Storable e := by
  have hens : bothCutoffs.entries = [(ordersKey, 3), (refundsKey, 5)] := by decide +kernel
  rw [hens, List.forall_mem_cons, List.forall_mem_singleton]
  constructor <;> constructor <;> decide

/-- The calls that have returned, and the map in the file. -/
def seen (s : SnapshotFile.State Update CommittedGenerations JsonText.tree.Text) :
    List Bool × Option CommittedGenerations :=
  ([0, 1].map fun c => match s.phase c with | .returned _ _ => true | _ => false,
    (loadCommittedCheckpoint .tree (.ok s.file)).toOption)

theorem overtaking_seen : (∃ s, seen s = ([true, true], some bothCutoffs) ∧
      ∀ c n u, s.phase c = .returned u n → ∃ k ≤ s.updates.length,
        s.file = some (persistText .tree ((protocol .tree).after s.initial (s.updates.take k))) ∧
        ∀ d m v, s.phase d = .returned v m → m < k ∧ s.updates[m]? = some v) ∧
      loadCommittedCheckpoint .tree (.ok (some (persistText .tree bothCutoffs))) =
        .ok bothCutoffs := by
  have hrun : ((SnapshotFile.machine (protocol .tree)).exec quiet overtaking).map seen =
      some ([true, true], some bothCutoffs) := by
    decide +kernel
  obtain ⟨s, run, hs⟩ := Machine.exists_of_exec quiet_start hrun
  exact ⟨⟨s, hs, (checkpoint_never_stale .tree).1 s run⟩,
    (checkpoint_never_stale .tree).2 bothCutoffs bothCutoffs_storable⟩

end Checkpoint

end TeoDB.Storage.Wal

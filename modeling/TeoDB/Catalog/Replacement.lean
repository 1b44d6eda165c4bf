import TeoDB.Catalog.Adapter
import TeoDB.Catalog.Manifests

/-!
# What a compaction hides

A compaction adds its output in a new snapshot, whose summary lists the locations of
the files that it supersedes. The list is rendered from parsed locations, while a
reader compares it with the paths as the manifests have them. So a file is hidden
only if its recorded path is in normal form.

## Implementation notes

The library puts the added files into one new manifest; what it draws for the snapshot is a
parameter. `List.diff` takes away one entry for each file that was compacted.
-/

namespace TeoDB.Catalog

open TeoDB.Core Lib Storage Storage.Wal

/-- What the library draws for a new snapshot. -/
structure DrawnSnapshot where
  snapshotId : Int
  timestampMs : Int
  manifestPath : String
  partitionSpecId : Int

section

variable {P : Type}

def Manifest.hasAlive (manifest : Manifest P) : Bool :=
  manifest.entries.any ManifestEntry.alive

/-- The manifest of the added files; there is none without files. -/
def DrawnSnapshot.addedManifests (drawn : DrawnSnapshot) : List (DataFile P) → List (Manifest P)
  | [] => []
  | added => [{
      manifestPath := drawn.manifestPath
      partitionSpecId := drawn.partitionSpecId
      entries := added.map fun file => ⟨true, teodbDataFileToIceberg file⟩ }]

/-- An added file as a reader loads it. -/
def DrawnSnapshot.loaded (drawn : DrawnSnapshot) (file : DataFile P) : LoadedIcebergDataFile P :=
  ⟨teodbDataFileToIceberg file, drawn.partitionSpecId⟩

variable (codec : PathsCodec) (t : IcebergTable P)

def IcebergTable.replaceSnapshot (request : Adapter.CommitReplace (DataFile P))
    (drawn : DrawnSnapshot) : IcebergSnapshot P where
  snapshotId := drawn.snapshotId
  parentSnapshotId := t.currentSnapshotId
  timestampMs := drawn.timestampMs
  summary := request.properties.insert removedDataFilesProp (codec.toJson request.removedDataFiles)
  manifestList := (t.currentSnapshot.toList.flatMap IcebergSnapshot.manifestList).filter
    Manifest.hasAlive ++ drawn.addedManifests request.addedDataFiles

/-- The table after a replace was committed on it. -/
def IcebergTable.replaced (request : Adapter.CommitReplace (DataFile P)) (drawn : DrawnSnapshot) :
    IcebergTable P :=
  { t with
    currentSnapshotId := some drawn.snapshotId
    snapshots := t.snapshots ++ [t.replaceSnapshot codec request drawn] }

/-- The request of a compaction. -/
def compactionRequest (ident : TableIdent) (baseSnapshotId : Int) (inputs : List (DataFile P))
    (resolvedDeletes : List ObjectLocation) (added : List (DataFile P)) :
    Adapter.CommitReplace (DataFile P) where
  table := ident
  baseSnapshotId := baseSnapshotId
  removedDataFiles := (inputs.map DataFile.path ++ resolvedDeletes).map ObjectLocation.toUri
  addedDataFiles := added
  properties := OrdMap.empty.insert "teodb.op" "compaction"

/-- The metadata of a table without its manifests. -/
def IcebergTable.metadata (currentSchemaId : Int) : TableMetadata where
  tableUuid := t.tableUuid
  currentSnapshotId := t.currentSnapshotId
  currentSchemaId := currentSchemaId
  snapshots := t.snapshots.map fun snapshot =>
    ⟨snapshot.snapshotId, snapshot.parentSnapshotId, snapshot.summary⟩
  properties := t.properties

/-- The replace of a table with manifests is the adapter's update of its metadata. -/
lemma IcebergTable.replaced_metadata {L Q : Type} (env : Adapter.AdapterEnv (DataFile P) L Q)
    (hj : env.removedToJson = codec.toJson) (request : Adapter.CommitReplace (DataFile P))
    (drawn : DrawnSnapshot) (currentSchemaId : Int) :
    (t.replaced codec request drawn).metadata currentSchemaId =
      (request.tableCommit env (t.metadata currentSchemaId) drawn.snapshotId).applied
        (t.metadata currentSchemaId) := by
  simp [IcebergTable.metadata, IcebergTable.replaced, IcebergTable.replaceSnapshot,
    Adapter.TableCommit.applied, Adapter.CommitReplace.tableCommit, OrdMap.insertAll, hj]

end

section

variable {P : Type}

/-- The live files that one manifest contributes. -/
def Manifest.liveFiles (manifest : Manifest P) (removed : List String) :
    List (LoadedIcebergDataFile P) :=
  (manifest.entries.filter fun e => e.alive && !removed.contains e.dataFile.filePath).map
    fun e => ⟨e.dataFile, manifest.partitionSpecId⟩

lemma IcebergSnapshot.liveFiles_eq_flatMap (sn : IcebergSnapshot P) (rem : List String) :
    sn.liveFiles rem = sn.manifestList.flatMap fun mf => mf.liveFiles rem := by
  simp only [IcebergSnapshot.liveFiles, IcebergSnapshot.loadedEntries, List.filter_flatMap,
    List.map_flatMap, List.filter_map, List.map_map, Manifest.liveFiles]
  rfl

lemma Manifest.liveFiles_of_not_hasAlive {mf : Manifest P} (rem : List String)
    (h : mf.hasAlive = false) : mf.liveFiles rem = [] := by
  rw [Manifest.hasAlive, List.any_eq_false] at h
  rw [Manifest.liveFiles, List.map_eq_nil_iff, List.filter_eq_nil_iff]
  intro e he
  simp [h e he]

lemma flatMap_liveFiles_hasAlive (mfs : List (Manifest P)) (rem : List String) :
    ((mfs.filter Manifest.hasAlive).flatMap fun mf => mf.liveFiles rem) =
      mfs.flatMap fun mf => mf.liveFiles rem := by
  induction mfs with
  | nil => rfl
  | cons mf rest ih =>
    cases hali : mf.hasAlive with
    | true => simp [hali, ih]
    | false => simp [hali, ih, Manifest.liveFiles_of_not_hasAlive rem hali]

lemma Manifest.liveFiles_append (mf : Manifest P) (marked rem : List String) :
    mf.liveFiles (marked ++ rem) =
      (mf.liveFiles rem).filter fun f => !marked.contains f.file.filePath := by
  simp only [Manifest.liveFiles, List.filter_map, List.filter_filter]
  congr 1
  apply List.filter_congr
  intro e _
  simp only [Function.comp_apply, List.contains_eq_mem, List.mem_append, Bool.decide_or]
  cases e.alive <;> simp [Bool.and_comm]

lemma DrawnSnapshot.liveFiles_addedManifests (drawn : DrawnSnapshot) (ad : List (DataFile P))
    (rem : List String) : ((drawn.addedManifests ad).flatMap fun mf => mf.liveFiles rem) =
      (ad.map drawn.loaded).filter fun f => !rem.contains f.file.filePath := by
  cases ad with
  | nil => rfl
  | cons file rest =>
    simp only [DrawnSnapshot.addedManifests, List.flatMap_cons, List.flatMap_nil,
      List.append_nil, Manifest.liveFiles, List.filter_map, List.map_map]
    rfl

variable {codec : PathsCodec} {t : IcebergTable P} {live : List (LoadedIcebergDataFile P)}
  {old : List String} {request : Adapter.CommitReplace (DataFile P)} {drawn : DrawnSnapshot}

/-- The live files, from the lineage that could be read. -/
lemma liveDataFiles_eq (hold : t.removedDataFilePaths codec t.currentSnapshotId = some (.ok old))
    (hl : t.liveDataFiles codec = some (.ok live)) :
    live = (t.currentSnapshot.toList.flatMap IcebergSnapshot.manifestList).flatMap
      fun mf => mf.liveFiles old := by
  unfold IcebergTable.liveDataFiles IcebergTable.liveDataFilesOf at hl
  cases hcur : t.currentSnapshot with
  | none =>
    rw [show t.currentSnapshotId.bind t.snapshotById = none from hcur] at hl
    cases hl
    rfl
  | some sn =>
    rw [show t.currentSnapshotId.bind t.snapshotById = some sn from hcur] at hl
    simp only [hold, Option.map_some, Except.map, Option.some.injEq, Except.ok.injEq] at hl
    simp [← hl, IcebergSnapshot.liveFiles_eq_flatMap]

lemma replaced_grows : Grows t (t.replaced codec request drawn) :=
  ⟨List.prefix_append _ _⟩

lemma snapshotById_replaced (hnew : t.snapshotById drawn.snapshotId = none) :
    (t.replaced codec request drawn).snapshotById drawn.snapshotId =
      some (t.replaceSnapshot codec request drawn) := by
  unfold IcebergTable.snapshotById at hnew ⊢
  rw [IcebergTable.replaced, List.find?_append, hnew]
  simp [IcebergTable.replaceSnapshot]

section

variable (hnew : t.snapshotById drawn.snapshotId = none)
  (hold : t.removedDataFilePaths codec t.currentSnapshotId = some (.ok old))

include hnew hold

/-- The lineage of the new snapshot removes what it marks and what was removed before. -/
lemma removedDataFilePaths_replaced :
    (t.replaced codec request drawn).removedDataFilePaths codec (some drawn.snapshotId) =
      some (.ok (request.removedDataFiles ++ old)) := by
  have hmar : IcebergTable.markedPaths codec (t.replaceSnapshot codec request drawn) =
      .ok request.removedDataFiles := by
    simp [IcebergTable.markedPaths, IcebergTable.replaceSnapshot, OrdMap.find?_insert,
      codec.fromJson_toJson]
  have hgrows : Grows t (t.replaced codec request drawn) := replaced_grows
  have hpar := hgrows.removedPathsFrom (le_refl t.snapshots.length) hold
  have hlen : (t.replaced codec request drawn).snapshots.length = t.snapshots.length + 1 := by
    simp [IcebergTable.replaced]
  rw [IcebergTable.removedDataFilePaths, hlen, IcebergTable.removedPathsFrom,
    snapshotById_replaced hnew]
  simp only [hmar]
  change Option.map _ (IcebergTable.removedPathsFrom codec _ t.snapshots.length
    t.currentSnapshotId) = _
  rw [hpar]
  rfl

/-- What a replace leaves alive of the old files and of the added ones. -/
lemma liveDataFiles_replaced (hl : t.liveDataFiles codec = some (.ok live)) :
    (t.replaced codec request drawn).liveDataFiles codec = some (.ok
      ((live.filter fun f => !request.removedDataFiles.contains f.file.filePath) ++
        (request.addedDataFiles.map drawn.loaded).filter fun f =>
          !(request.removedDataFiles ++ old).contains f.file.filePath)) := by
  change (t.replaced codec request drawn).liveDataFilesOf codec (some drawn.snapshotId) = _
  unfold IcebergTable.liveDataFilesOf
  rw [Option.bind_some, snapshotById_replaced hnew, removedDataFilePaths_replaced hnew hold]
  simp only [Option.map_some, Except.map, IcebergSnapshot.liveFiles_eq_flatMap,
    IcebergTable.replaceSnapshot, List.flatMap_append, flatMap_liveFiles_hasAlive,
    DrawnSnapshot.liveFiles_addedManifests, Manifest.liveFiles_append]
  rw [liveDataFiles_eq hold hl, List.filter_flatMap]

end

end

section

/-- A filter leaves exactly the second of two lists if it drops the first and keeps the
second. -/
lemma filter_append_perm_iff {α : Type} {keep : α → Bool} {dropped kept : List α} :
    ((dropped ++ kept).filter keep).Perm kept ↔
      (∀ x ∈ dropped, keep x = false) ∧ ∀ x ∈ kept, keep x = true := by
  constructor
  · intro h
    have hk : ∀ x ∈ kept, keep x = true :=
      fun x hx => (List.mem_filter.mp (h.mem_iff.mpr hx)).2
    rw [List.filter_append, List.filter_eq_self.mpr hk] at h
    have hnil : dropped.filter keep = [] := by
      apply List.eq_nil_of_length_eq_zero
      have hlen := h.length_eq
      rw [List.length_append] at hlen
      omega
    refine ⟨fun x hx => ?_, hk⟩
    simpa using List.filter_eq_nil_iff.mp hnil x hx
  · rintro ⟨hdro, hk⟩
    have hnil : dropped.filter keep = [] := by
      apply List.filter_eq_nil_iff.mpr
      intro x hx
      simp [hdro x hx]
    rw [List.filter_append, hnil, List.filter_eq_self.mpr hk, List.nil_append]

variable {P : Type} {taken : List (LoadedIcebergDataFile P)} {fs : List (DataFile P)}

section

variable (h : icebergDataFilesToTeodb taken = .ok fs)

include h

/-- The markers of files are the renderings of their recorded paths. -/
lemma mem_markers_iff {path : String} : path ∈ fs.map (fun file => file.path.toUri) ↔
      ∃ f ∈ taken, ∃ l, icebergLocationToTeodb f.file.filePath = .ok l ∧ l.toUri = path := by
  have hfs := forall₂_icebergDataFilesToTeodb h
  clear h
  induction hfs with
  | nil => simp
  | cons hf _ ih =>
    rw [List.map_cons, List.mem_cons, List.exists_mem_cons_iff, path_of_icebergDataFileToTeodb hf]
    exact or_congr (by simp [eq_comm]) ih

lemma icebergLocation_of_mem {f : LoadedIcebergDataFile P} (hf : f ∈ taken) :
    ∃ l, icebergLocationToTeodb f.file.filePath = .ok l := by
  have hfs := forall₂_icebergDataFilesToTeodb h
  clear h
  induction hfs with
  | nil => cases hf
  | cons hfile _ ih =>
    rcases List.mem_cons.mp hf with rfl | hf
    · exact ⟨_, path_of_icebergDataFileToTeodb hfile⟩
    · exact ih hf

/-- All recorded paths are marked exactly if all are in normal form. -/
lemma all_marked_iff : (∀ f ∈ taken, f.file.filePath ∈ fs.map fun file => file.path.toUri) ↔
      ∀ f ∈ taken, NormalUri f.file.filePath := by
  constructor
  · intro hmar f hf
    obtain ⟨_, _, l, hl, huri⟩ := (mem_markers_iff h).mp (hmar f hf)
    exact ⟨l, icebergLocationToTeodb_normal hl, huri⟩
  · intro hnor f hf
    obtain ⟨l, hl⟩ := icebergLocation_of_mem h hf
    exact (mem_markers_iff h).mpr ⟨f, hf, l, hl, (toUri_icebergLocation_iff hl).mpr (hnor f hf)⟩

lemma mem_markers_of_normal (hnor : ∀ f ∈ taken, NormalUri f.file.filePath) {path : String} :
    path ∈ fs.map (fun file => file.path.toUri) ↔ path ∈ taken.map fun f => f.file.filePath := by
  rw [mem_markers_iff h, List.mem_map]
  constructor
  · rintro ⟨f, hf, l, hl, rfl⟩
    exact ⟨f, hf, ((toUri_icebergLocation_iff hl).mpr (hnor f hf)).symm⟩
  · rintro ⟨f, hf, rfl⟩
    obtain ⟨l, hl⟩ := icebergLocation_of_mem h hf
    exact ⟨f, hf, l, hl, (toUri_icebergLocation_iff hl).mpr (hnor f hf)⟩

end

variable {codec : PathsCodec} {t : IcebergTable P} {live : List (LoadedIcebergDataFile P)}
  {old : List String} {drawn : DrawnSnapshot}

/-- The taken files are recorded under normal paths, other live files under other paths, and the
added ones under new paths. -/
structure ExactlyNamed (live taken : List (LoadedIcebergDataFile P)) (old : List String)
    (added : List (DataFile P)) [DecidableEq P] : Prop where
  normal : ∀ f ∈ taken, NormalUri f.file.filePath
  kept : ∀ f ∈ live.diff taken, f.file.filePath ∉ taken.map fun g => g.file.filePath
  added : ∀ file ∈ added,
    file.path.toUri ∉ old ∧ file.path.toUri ∉ taken.map fun g => g.file.filePath

/-- What is recorded under a path that a lineage has removed is not live. -/
lemma filePath_notMem_removed
    (hold : t.removedDataFilePaths codec t.currentSnapshotId = some (.ok old))
    (hl : t.liveDataFiles codec = some (.ok live)) {f : LoadedIcebergDataFile P}
    (hf : f ∈ live) : f.file.filePath ∉ old := by
  rw [liveDataFiles_eq hold hl] at hf
  obtain ⟨mf, _, hf⟩ := List.mem_flatMap.mp hf
  obtain ⟨e, he, rfl⟩ := List.mem_map.mp hf
  simpa using (Bool.and_eq_true_iff.mp (List.mem_filter.mp he).2).2

/-- A replace leaves the other files and the added ones if it marks the paths of the taken files,
and removes no path of the others. -/
lemma replaced_perm_iff [DecidableEq P] {request : Adapter.CommitReplace (DataFile P)}
    (hnew : t.snapshotById drawn.snapshotId = none)
    (hold : t.removedDataFilePaths codec t.currentSnapshotId = some (.ok old))
    (hl : t.liveDataFiles codec = some (.ok live)) (htak : taken.Subperm live) :
    (∃ live', (t.replaced codec request drawn).liveDataFiles codec = some (.ok live') ∧
      live'.Perm (live.diff taken ++ request.addedDataFiles.map drawn.loaded)) ↔
      (∀ f ∈ taken, f.file.filePath ∈ request.removedDataFiles) ∧
        ∀ f ∈ live.diff taken ++ request.addedDataFiles.map drawn.loaded,
          f.file.filePath ∉ request.removedDataFiles ++ old := by
  let keep : LoadedIcebergDataFile P → Bool := fun f =>
    !(request.removedDataFiles ++ old).contains f.file.filePath
  have hk : ∀ f ∈ live, (!request.removedDataFiles.contains f.file.filePath) = keep f := by
    intro f hf
    have hf := filePath_notMem_removed hold hl hf
    simp [keep, hf]
  have hsp : (taken ++ live.diff taken).Perm live :=
    List.subperm_append_diff_self_of_count_le fun f _ => htak.count_le f
  have hp : ((live.filter fun f => !request.removedDataFiles.contains f.file.filePath) ++
      (request.addedDataFiles.map drawn.loaded).filter keep).Perm
      ((taken ++ (live.diff taken ++ request.addedDataFiles.map drawn.loaded)).filter keep) := by
    rw [List.filter_congr hk, ← List.filter_append, ← List.append_assoc]
    exact ((hsp.append_right _).filter keep).symm
  rw [liveDataFiles_replaced hnew hold hl]
  simp only [Option.some.injEq, Except.ok.injEq, exists_eq_left']
  rw [hp.congr_left, filter_append_perm_iff]
  have hhid : (∀ f ∈ taken, keep f = false) ↔
      ∀ f ∈ taken, f.file.filePath ∈ request.removedDataFiles := by
    apply forall₂_congr
    intro f hf
    have hf := filePath_notMem_removed hold hl (htak.subset hf)
    simp [keep, hf]
  rw [hhid]
  simp [keep]

/-- A compaction leaves the old files without its inputs and resolved deletes and with the added
files, exactly if these are named so. -/
theorem compaction_hides_inputs_iff [DecidableEq P] (codec : PathsCodec) (t : IcebergTable P)
    (ident : TableIdent) (baseSnapshotId : Int) (drawn : DrawnSnapshot)
    {live taken : List (LoadedIcebergDataFile P)} {old : List String}
    {inputs resolved : List (DataFile P)} (added : List (DataFile P))
    (hnew : t.snapshotById drawn.snapshotId = none)
    (hold : t.removedDataFilePaths codec t.currentSnapshotId = some (.ok old))
    (hlive : t.liveDataFiles codec = some (.ok live)) (htaken : taken.Subperm live)
    (hfiles : icebergDataFilesToTeodb taken = .ok (inputs ++ resolved)) :
    (∃ live', (t.replaced codec (compactionRequest ident baseSnapshotId inputs
        (resolved.map DataFile.path) added) drawn).liveDataFiles codec = some (.ok live') ∧
      live'.Perm (live.diff taken ++ added.map drawn.loaded)) ↔
      ExactlyNamed live taken old added := by
  have hmar : (compactionRequest ident baseSnapshotId inputs (resolved.map DataFile.path)
      added).removedDataFiles = (inputs ++ resolved).map fun file => file.path.toUri := by
    simp [compactionRequest, Function.comp_def]
  have hold' : ∀ f ∈ live.diff taken, f.file.filePath ∉ old := fun f hf =>
    filePath_notMem_removed hold hlive (List.diff_subset _ _ hf)
  refine (replaced_perm_iff hnew hold hlive htaken).trans ?_
  rw [hmar, all_marked_iff hfiles, List.forall_mem_append]
  constructor
  · rintro ⟨hnor, hk, hadd⟩
    refine ⟨hnor, fun f hf => ?_, fun file hfi => ?_⟩
    · have hf := hk f hf
      rw [List.mem_append, not_or, mem_markers_of_normal hfiles hnor] at hf
      exact hf.1
    · have hfi := hadd _ (List.mem_map_of_mem hfi)
      rw [List.mem_append, not_or, mem_markers_of_normal hfiles hnor] at hfi
      exact hfi.symm
  · rintro ⟨hnor, hk, hadd⟩
    refine ⟨hnor, fun f hf => ?_, fun f hf => ?_⟩
    · rw [List.mem_append, not_or, mem_markers_of_normal hfiles hnor]
      exact ⟨hk f hf, hold' f hf⟩
    · obtain ⟨file, hfi, rfl⟩ := List.mem_map.mp hf
      rw [List.mem_append, not_or, mem_markers_of_normal hfiles hnor]
      exact (hadd file hfi).symm

end

def recordedFile (path : String) : LoadedIcebergDataFile Unit := ⟨⟨.data, path, (), 1, 10⟩, 0⟩

/-- A table whose current snapshot records two data files. -/
def recordedTable (first second : String) : IcebergTable Unit where
  tableUuid := Uuid.ofNat 7
  location := "s3://lake/orders"
  currentSnapshotId := some 1
  snapshots := [⟨1, none, 1000, OrdMap.empty,
    [⟨"m1.avro", 0, [⟨true, (recordedFile first).file⟩, ⟨true, (recordedFile second).file⟩]⟩]⟩]
  properties := OrdMap.empty

def compactedInput : DataFile Unit := ⟨.data, ⟨.s3, some "lake", "orders/data/a"⟩, 0, (), 1, 10⟩

def compactedOutput : DataFile Unit := ⟨.data, ⟨.s3, some "lake", "orders/data/c"⟩, 0, (), 1, 10⟩

def drawnSecond : DrawnSnapshot := ⟨2, 2000, "m2.avro", 0⟩

theorem compaction_hides_inputs_iff_normalPath :
    ∃ live',
      ((recordedTable "s3://lake/orders/data/a" "s3://lake/orders/data/b").replaced plainCodec
        (compactionRequest ordersTable 1 [compactedInput] [] [compactedOutput])
        drawnSecond).liveDataFiles plainCodec = some (.ok live') ∧
      live'.Perm [recordedFile "s3://lake/orders/data/b",
        recordedFile "s3://lake/orders/data/c"] := by
  have hl : (recordedTable "s3://lake/orders/data/a" "s3://lake/orders/data/b").liveDataFiles
      plainCodec = some (.ok [recordedFile "s3://lake/orders/data/a",
        recordedFile "s3://lake/orders/data/b"]) := by
    decide +kernel
  have hnm : ExactlyNamed [recordedFile "s3://lake/orders/data/a",
      recordedFile "s3://lake/orders/data/b"] [recordedFile "s3://lake/orders/data/a"] []
      [compactedOutput] := by
    refine ⟨?_, by decide +kernel, by decide +kernel⟩
    have hps : ObjectLocation.parse "s3://lake/orders/data/a" = .ok compactedInput.path := by
      decide +kernel
    intro f hf
    rw [List.mem_singleton.mp hf]
    exact (toUri_parse_eq_iff hps).mp (by decide +kernel)
  have hfs : icebergDataFilesToTeodb [recordedFile "s3://lake/orders/data/a"] =
      .ok ([compactedInput] ++ []) := by
    decide +kernel
  exact (compaction_hides_inputs_iff plainCodec _ ordersTable 1 drawnSecond [compactedOutput]
    (by decide +kernel) (by decide +kernel) hl (by decide +kernel) hfs).mpr hnm

/-- With a repeated slash in the recorded path the input stays alive beside the output. -/
theorem compaction_leaves_input :
    icebergDataFilesToTeodb [recordedFile "s3://lake/orders//data/a"] = .ok [compactedInput] ∧
    ((recordedTable "s3://lake/orders//data/a" "s3://lake/orders/data/b").replaced plainCodec
        (compactionRequest ordersTable 1 [compactedInput] [] [compactedOutput])
        drawnSecond).liveDataFiles plainCodec =
      some (.ok [recordedFile "s3://lake/orders//data/a", recordedFile "s3://lake/orders/data/b",
        recordedFile "s3://lake/orders/data/c"]) := by
  constructor
  · decide +kernel
  · decide +kernel

end TeoDB.Catalog

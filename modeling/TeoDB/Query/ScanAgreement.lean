import TeoDB.Core.Schema
import TeoDB.Lib.Serde
import TeoDB.Query.PositionDeletes
import TeoDB.Storage.ObjectKey

/-!
# Local and pinned scans of a snapshot

A node plans a scan of its own snapshot, or freezes it in a descriptor from which executors plan
the scan. Both prune alike but load the position deletes differently: the local scan joins the key
of a delete file to the key of the table location, the pinned scan takes the key as it is, and
loads nothing when no data file is left.

Keys of delete files are keys of the bucket, so the two agree on a scan with deletes only for
a table at the root of its bucket (`scans_agree_iff`).

## Implementation notes

Pruning and the projection of the schema are parameters, with the filters and the projection of one
scan. The schema of a provider is that of its metadata.
-/

namespace TeoDB.Query

open TeoDB.Core Lib Catalog Storage Storage.Wal

/-- What planning a scan meets. -/
structure ScanEnv (P T : Type) where
  rules : PathRules
  scheme : StorageScheme
  bucket : String
  deleteObject : List Char → TeoDBResult (List (List DeleteRow))
  prune : SchemaDefinition → PartitionSpec → List (DataFile P) →
    Except DataFusionError (List (DataFile P))
  projectedSchema : SchemaDefinition → Except DataFusionError T
  limit : Option Nat

/-- The files of a snapshot. -/
structure SnapshotFiles (P : Type) where
  dataFiles : List (DataFile P)
  deleteFiles : List (DataFile P)

/-- What scans read of table metadata. The ids that are current may name nothing. -/
structure ScanMetadata (P : Type) where
  tableLocation : ObjectLocation
  currentSnapshot : Option (SnapshotFiles P)
  currentSchema : TeoDBResult SchemaDefinition
  currentPartitionSpec : TeoDBResult PartitionSpec
  currentSortOrder : TeoDBResult SortOrder

structure TeoTableProvider (P : Type) where
  metadata : ScanMetadata P
  schema : SchemaDefinition
  built : metadata.currentSchema = .ok schema

/-- What an executor reads of a descriptor. -/
structure PinnedDescriptor (P : Type) where
  tableLocation : ObjectLocation
  schema : SchemaDefinition
  partitionSpec : PartitionSpec
  dataFiles : List (DataFile P)
  deleteFiles : List (DataFile P)

/-- A planned scan: the objects read whole, up to a limit, those read without some rows, and the
delete files. -/
structure PlannedScan (T : Type) where
  schema : T
  whole : List (List Char)
  limit : Option Nat
  filtered : List (List Char × Finset Int)
  loaded : List (List Char)

variable {P T : Type}

def dataFilesOf (files : List (DataFile P)) : List (DataFile P) :=
  files.filter fun f => f.content = .data

def hasEqualityDeletes (files : List (DataFile P)) : Bool :=
  files.any fun d => d.content = .equalityDelete

def equalityDeletesError : DataFusionError :=
  .notImplemented "equality-delete files are not yet supported in TeoDB scans"

def snapshotFiles (metadata : ScanMetadata P) : Except DataFusionError (SnapshotFiles P) :=
  match metadata.currentSnapshot with
  | none => .ok ⟨[], []⟩
  | some snapshot =>
    if hasEqualityDeletes snapshot.deleteFiles then .error equalityDeletesError
    else .ok ⟨dataFilesOf snapshot.dataFiles, positionDeleteFiles snapshot.deleteFiles⟩

def snapshotScanDescriptor (metadata : ScanMetadata P) :
    TeoDBResult (Option (PinnedDescriptor P)) :=
  match metadata.currentSnapshot with
  | none => .ok none
  | some snapshot => do
    let schema ← metadata.currentSchema
    let partitionSpec ← metadata.currentPartitionSpec
    let _ ← metadata.currentSortOrder
    return some
      { tableLocation := metadata.tableLocation
        schema := schema
        partitionSpec := partitionSpec
        dataFiles := dataFilesOf snapshot.dataFiles
        deleteFiles := snapshot.deleteFiles }

namespace ScanEnv

variable (env : ScanEnv P T)

/-- The backend's path of a location. -/
def resolve (location : ObjectLocation) : TeoDBResult (List Char) :=
  if env.scheme = location.scheme ∧ env.bucket = location.bucket.getD "" then
    .ok location.key.toList
  else .error (.config "no storage backend registered")

/-- Read the objects of delete files, each at its path, into one map. -/
def loadObjects (path : DataFile P → List Char) (source : DataFile P → String) :
    PositionDeleteMap → List (DataFile P) → TeoDBResult PositionDeleteMap
  | m, [] => .ok m
  | m, d :: rest => do
    let batches ← env.deleteObject (env.rules.toOsPath (path d))
    let m ← parsePositionDeleteBytes (source d) m batches
    loadObjects path source m rest

/-- The key of a delete file under the base path of the table. -/
def basedPath (base : List Char) (d : DataFile P) : List Char :=
  if base = [] then d.path.key.toList
  else (base.reverse.dropWhile (· = '/')).reverse ++ '/' :: d.path.key.toList

def keyPath (d : DataFile P) : List Char := d.path.key.toList

def load (base : List Char) (files : List (DataFile P)) : TeoDBResult PositionDeleteMap :=
  env.loadObjects (basedPath base) (fun d => String.ofList (basedPath base d)) OrdMap.empty files

def loadFromStore (files : List (DataFile P)) : TeoDBResult PositionDeleteMap :=
  env.loadObjects keyPath (fun d => String.ofList (env.rules.toOsPath (keyPath d))) OrdMap.empty
    files

def objectPaths (path : DataFile P → List Char) (files : List (DataFile P)) : List (List Char) :=
  files.map fun d => env.rules.toOsPath (path d)

/-- Build the plan for files and their deletes. -/
def build (schema : SchemaDefinition) (files : List (DataFile P))
    (deletes : Option PositionDeleteMap) (limit : Option Nat) (loaded : List (List Char)) :
    Except DataFusionError (PlannedScan T) := do
  let projected ← env.projectedSchema schema
  let split := splitByDeletes files deletes
  return { schema := projected
           whole := env.objectPaths keyPath split.1
           limit := if split.1.isEmpty then none else limit
           filtered := split.2.map fun fp => (env.rules.toOsPath (keyPath fp.1), fp.2)
           loaded := loaded }

/-- The scan that a node plans for itself. -/
def planScan (provider : TeoTableProvider P) : Except DataFusionError (PlannedScan T) := do
  let files ← snapshotFiles provider.metadata
  let spec ← provider.metadata.currentPartitionSpec.mapError .external
  let pruned ← env.prune provider.schema spec files.dataFiles
  if files.deleteFiles.isEmpty then env.build provider.schema pruned none env.limit []
  else
    let base ← (env.resolve provider.metadata.tableLocation).mapError .external
    let deletes ← (env.load base files.deleteFiles).mapError .external
    env.build provider.schema pruned (some deletes) env.limit
      (env.objectPaths (basedPath base) files.deleteFiles)

/-- The scan that an executor plans from a descriptor. -/
def pinnedScanPlan (d : PinnedDescriptor P) : Except DataFusionError (PlannedScan T) := do
  if hasEqualityDeletes d.deleteFiles then throw equalityDeletesError
  let pruned ← env.prune d.schema d.partitionSpec d.dataFiles
  let deleteFiles := positionDeleteFiles d.deleteFiles
  if pruned.isEmpty then env.build d.schema [] none none []
  else if deleteFiles.isEmpty then env.build d.schema pruned none env.limit []
  else
    let deletes ← (env.loadFromStore deleteFiles).mapError .external
    env.build d.schema pruned (some deletes) env.limit (env.objectPaths keyPath deleteFiles)

end ScanEnv

/-- Two planned scans are the same scan, or both have failed. -/
def SameScan (a b : Except DataFusionError (PlannedScan T)) : Prop := a.toOption = b.toOption

section

lemma parts_append (a b : List Char) : parts (a ++ '/' :: b) = parts a ++ parts b := by
  rw [parts, segments_append, List.filter_append]
  rfl

lemma parts_append_slashes (a : List Char) {slashes : List Char}
    (h : ∀ c ∈ slashes, c = '/') : parts (a ++ slashes) = parts a := by
  induction slashes generalizing a with
  | nil => rw [List.append_nil]
  | cons c rest ih =>
    obtain rfl : c = '/' := h c List.mem_cons_self
    have hr := ih [] fun c hc => h c (List.mem_cons_of_mem _ hc)
    rw [parts_append, ← List.nil_append rest, hr]
    simp [parts, segments]

lemma parts_basedPath (base : List Char) (d : DataFile P) :
    parts (ScanEnv.basedPath base d) = parts base ++ parts d.path.key.toList := by
  rw [ScanEnv.basedPath]
  split_ifs with hb
  · rw [hb]
    rfl
  · have hsp : base = (base.reverse.dropWhile (· = '/')).reverse ++
        (base.reverse.takeWhile (· = '/')).reverse := by
      rw [← List.reverse_append, List.takeWhile_append_dropWhile, List.reverse_reverse]
    have hsla : ∀ c ∈ (base.reverse.takeWhile (· = '/')).reverse, c = '/' := by
      intro c hc
      simpa using List.mem_takeWhile_imp (List.mem_reverse.mp hc)
    rw [parts_append]
    conv_rhs => rw [hsp, parts_append_slashes _ hsla]

variable {rules : PathRules}

/-- Under a base path with a part, every object is another one. -/
lemma toOsPath_basedPath_ne {base : List Char} (h : parts base ≠ []) (d : DataFile P) :
    rules.toOsPath (ScanEnv.basedPath base d) ≠ rules.toOsPath (ScanEnv.keyPath d) := by
  intro heq
  have hlen := congrArg (fun path => (parts path).length) heq
  simp only [PathRules.parts_toOsPath, parts_basedPath, ScanEnv.keyPath, List.length_map,
    List.length_append] at hlen
  exact h (List.eq_nil_of_length_eq_zero (by omega))

lemma toOsPath_basedPath {base : List Char} (h : parts base = []) (d : DataFile P) :
    rules.toOsPath (ScanEnv.basedPath base d) = rules.toOsPath (ScanEnv.keyPath d) := by
  rw [PathRules.toOsPath, parts_basedPath, h, List.nil_append]
  rfl

end

section

lemma toOption_parseRow (src src' : String) (n : Nat) (m : PositionDeleteMap) (row : DeleteRow) :
    (parseRow src n m row).toOption = (parseRow src' n m row).toOption := by
  unfold parseRow
  split
  · split_ifs <;> rfl
  · rfl

@[simp] lemma toOption_ok {ε α : Type} (a : α) :
    (Except.ok a : Except ε α).toOption = some a := rfl

@[simp] lemma toOption_error {ε α : Type} (e : ε) :
    (Except.error e : Except ε α).toOption = none := rfl

lemma toOption_bind {ε α β : Type} (x : Except ε α) (f : α → Except ε β) :
    (x >>= f).toOption = x.toOption.bind fun a => (f a).toOption := by
  cases x <;> rfl

lemma toOption_mapError {ε ε' α : Type} (x : Except ε α) (f : ε → ε') :
    (x.mapError f).toOption = x.toOption := by
  cases x <;> rfl

lemma toOption_parseBatch (src src' : String) (n : Nat) (m : PositionDeleteMap)
    (bt : List DeleteRow) :
    (parseBatch src n m bt).toOption = (parseBatch src' n m bt).toOption := by
  induction bt generalizing n m with
  | nil => rfl
  | cons row rest ih =>
    have hc : ∀ src, parseBatch src n m (row :: rest) =
        parseRow src n m row >>= fun m => parseBatch src (n + 1) m rest := by
      intro src
      rw [parseBatch]
      cases parseRow src n m row <;> rfl
    simp only [hc, toOption_bind, toOption_parseRow src src', ih]

lemma toOption_parsePositionDeleteBytes (src src' : String) (m : PositionDeleteMap)
    (bs : List (List DeleteRow)) : (parsePositionDeleteBytes src m bs).toOption =
      (parsePositionDeleteBytes src' m bs).toOption := by
  induction bs generalizing m with
  | nil => rfl
  | cons bt rest ih =>
    have hc : ∀ src, parsePositionDeleteBytes src m (bt :: rest) =
        parseBatch src 0 m bt >>= fun m => parsePositionDeleteBytes src m rest := by
      intro src
      rw [parsePositionDeleteBytes]
      cases parseBatch src 0 m bt <;> rfl
    simp only [hc, toOption_bind, toOption_parseBatch src src', ih]

variable {env : ScanEnv P T}

lemma toOption_loadObjects {path path' : DataFile P → List Char}
    (h : ∀ d, env.rules.toOsPath (path d) = env.rules.toOsPath (path' d))
    (src src' : DataFile P → String) (m : PositionDeleteMap) (fs : List (DataFile P)) :
    (env.loadObjects path src m fs).toOption = (env.loadObjects path' src' m fs).toOption := by
  induction fs generalizing m with
  | nil => rfl
  | cons d rest ih =>
    simp only [ScanEnv.loadObjects, toOption_bind, h, ih,
      toOption_parsePositionDeleteBytes (src d) (src' d)]

/-- The object paths tell the two ways apart unless the base path has no part. -/
lemma objectPaths_basedPath_eq_iff {base : List Char} {fs : List (DataFile P)} (hne : fs ≠ []) :
    env.objectPaths (ScanEnv.basedPath base) fs = env.objectPaths ScanEnv.keyPath fs ↔
      parts base = [] := by
  constructor
  · intro h
    obtain ⟨d, rest, rfl⟩ := List.exists_cons_of_ne_nil hne
    by_contra hbase
    exact toOsPath_basedPath_ne hbase d (List.cons.inj h).1
  · intro h
    exact List.map_congr_left fun d _ => toOsPath_basedPath h d

end

section

variable {env : ScanEnv P T} {provider : TeoTableProvider P} {d : PinnedDescriptor P}

lemma build_toOption (sch : SchemaDefinition) (fs : List (DataFile P))
    (ds : Option PositionDeleteMap) (lim : Option Nat) (ld : List (List Char)) :
    (env.build sch fs ds lim ld).toOption = (env.projectedSchema sch).toOption.map fun projected =>
        { schema := projected
          whole := env.objectPaths ScanEnv.keyPath (splitByDeletes fs ds).1
          limit := if (splitByDeletes fs ds).1.isEmpty then none else lim
          filtered := (splitByDeletes fs ds).2.map fun fp =>
            (env.rules.toOsPath (ScanEnv.keyPath fp.1), fp.2)
          loaded := ld } := by
  rw [ScanEnv.build, toOption_bind]
  cases (env.projectedSchema sch).toOption <;> rfl

/-- A descriptor is that of the current snapshot under the schema of the provider. -/
lemma exists_snapshot (hd : snapshotScanDescriptor provider.metadata = .ok (some d)) :
    ∃ sn spec, provider.metadata.currentSnapshot = some sn ∧
      provider.metadata.currentPartitionSpec = .ok spec ∧
      d = ⟨provider.metadata.tableLocation, provider.schema, spec,
        dataFilesOf sn.dataFiles, sn.deleteFiles⟩ := by
  cases hsn : provider.metadata.currentSnapshot with
  | none => simp [snapshotScanDescriptor, hsn] at hd
  | some sn =>
    simp only [snapshotScanDescriptor, hsn] at hd
    obtain ⟨sch, hsch, hd⟩ := bind_eq_ok_iff.mp hd
    obtain ⟨spec, hs, hd⟩ := bind_eq_ok_iff.mp hd
    obtain ⟨_, _, hd⟩ := bind_eq_ok_iff.mp hd
    obtain rfl : sch = provider.schema := Except.ok.inj (hsch.symm.trans provider.built)
    exact ⟨sn, spec, rfl, hs, (Option.some.inj (Except.ok.inj hd)).symm⟩

lemma planScan_toOption (hd : snapshotScanDescriptor provider.metadata = .ok (some d))
    (hstore : env.scheme = d.tableLocation.scheme ∧ env.bucket = d.tableLocation.bucket.getD "") :
    (env.planScan provider).toOption = if hasEqualityDeletes d.deleteFiles then none
      else (env.prune d.schema d.partitionSpec d.dataFiles).toOption.bind fun pruned =>
        if (positionDeleteFiles d.deleteFiles).isEmpty then
          (env.build d.schema pruned none env.limit []).toOption
        else
          (env.load d.tableLocation.key.toList (positionDeleteFiles d.deleteFiles)).toOption.bind
            fun ds => (env.build d.schema pruned (some ds) env.limit
              (env.objectPaths (ScanEnv.basedPath d.tableLocation.key.toList)
                (positionDeleteFiles d.deleteFiles))).toOption := by
  obtain ⟨sn, spec, hsn, hs, rfl⟩ := exists_snapshot hd
  have hres : env.resolve provider.metadata.tableLocation =
      .ok provider.metadata.tableLocation.key.toList := if_pos hstore
  rw [ScanEnv.planScan, snapshotFiles, hsn, hs, hres]
  by_cases hequ : hasEqualityDeletes sn.deleteFiles = true
  · simp only [hequ, if_true]
    rfl
  · simp only [hequ, Bool.false_eq_true, if_false, toOption_bind, toOption_mapError,
      apply_ite Except.toOption]
    rfl

variable (env d) in
lemma pinnedScanPlan_toOption :
    (env.pinnedScanPlan d).toOption = if hasEqualityDeletes d.deleteFiles then none
      else (env.prune d.schema d.partitionSpec d.dataFiles).toOption.bind fun pruned =>
        if pruned.isEmpty then (env.build d.schema [] none none []).toOption
        else if (positionDeleteFiles d.deleteFiles).isEmpty then
          (env.build d.schema pruned none env.limit []).toOption
        else
          (env.loadFromStore (positionDeleteFiles d.deleteFiles)).toOption.bind fun ds =>
            (env.build d.schema pruned (some ds) env.limit
              (env.objectPaths ScanEnv.keyPath (positionDeleteFiles d.deleteFiles))).toOption := by
  by_cases hequ : hasEqualityDeletes d.deleteFiles = true
  · simp only [ScanEnv.pinnedScanPlan, hequ, if_true]
    rfl
  · simp only [ScanEnv.pinnedScanPlan, hequ, Bool.false_eq_true, if_false, toOption_bind,
      toOption_mapError, apply_ite Except.toOption]

/-- With deletes and a data file left, both scans load them alike exactly for a base path without
parts or if both loads fail. -/
lemma loaded_agree_iff {base : List Char} {fs pruned : List (DataFile P)}
    (hfs : fs ≠ []) {projected : T} {sch : SchemaDefinition}
    (hpro : (env.projectedSchema sch).toOption = some projected) :
    ((env.load base fs).toOption.bind fun ds => (env.build sch pruned (some ds)
        env.limit (env.objectPaths (ScanEnv.basedPath base) fs)).toOption) =
      ((env.loadFromStore fs).toOption.bind fun ds => (env.build sch pruned
        (some ds) env.limit (env.objectPaths ScanEnv.keyPath fs)).toOption) ↔ parts base = [] ∨
        ((env.load base fs).toOption = none ∧ (env.loadFromStore fs).toOption = none) := by
  constructor
  · intro h
    rw [or_iff_not_imp_left]
    intro hb
    have hpaths := mt (@objectPaths_basedPath_eq_iff P T env base fs hfs).mp hb
    simp only [build_toOption, hpro, Option.map_some] at h
    cases hloc : (env.load base fs).toOption <;>
      cases hpin : (env.loadFromStore fs).toOption <;> simp [hloc, hpin, hpaths] at h ⊢
  · rintro (hb | ⟨hloc, hpin⟩)
    · have hl : (env.load base fs).toOption = (env.loadFromStore fs).toOption :=
        toOption_loadObjects (toOsPath_basedPath hb) _ _ _ fs
      rw [hl, (objectPaths_basedPath_eq_iff hfs).mpr hb]
    · rw [hloc, hpin]
      rfl

/-- The scan of a node and that of its descriptor agree exactly if both are refused, nothing was
deleted by position, or the deletes are loaded alike. -/
theorem scans_agree_iff (env : ScanEnv P T) (provider : TeoTableProvider P)
    (d : PinnedDescriptor P) (hd : snapshotScanDescriptor provider.metadata = .ok (some d))
    (hstore : env.scheme = d.tableLocation.scheme ∧ env.bucket = d.tableLocation.bucket.getD "") :
    SameScan (env.planScan provider) (env.pinnedScanPlan d) ↔
      hasEqualityDeletes d.deleteFiles = true ∨
      (∃ error, env.prune d.schema d.partitionSpec d.dataFiles = .error error) ∨
      (∃ error, env.projectedSchema d.schema = .error error) ∨
      positionDeleteFiles d.deleteFiles = [] ∨
      ((∃ file rest, env.prune d.schema d.partitionSpec d.dataFiles = .ok (file :: rest)) ∧
        (parts d.tableLocation.key.toList = [] ∨
          (∃ error, env.load d.tableLocation.key.toList (positionDeleteFiles d.deleteFiles) =
            .error error) ∧
          ∃ error, env.loadFromStore (positionDeleteFiles d.deleteFiles) = .error error)) := by
  have hfl : ∀ {ε α : Type} (x : Except ε α), (∃ error, x = .error error) ↔ x.toOption = none := by
    intro ε α x
    cases x <;> simp
  simp only [SameScan, planScan_toOption hd hstore, pinnedScanPlan_toOption, hfl]
  by_cases hequ : hasEqualityDeletes d.deleteFiles = true
  · simp [hequ]
  cases hpruned : env.prune d.schema d.partitionSpec d.dataFiles with
  | error error => simp [hequ]
  | ok pruned =>
    cases hpro : (env.projectedSchema d.schema).toOption with
    | none => simp [build_toOption, hpro, hequ]
    | some projected =>
      by_cases hdels : positionDeleteFiles d.deleteFiles = []
      · cases pruned <;> simp [hdels, hequ, hpro, build_toOption, splitByDeletes]
      · cases pruned with
        | nil =>
          have hld : env.objectPaths (ScanEnv.basedPath d.tableLocation.key.toList)
              (positionDeleteFiles d.deleteFiles) ≠ [] := by
            simpa [ScanEnv.objectPaths] using hdels
          cases (env.load d.tableLocation.key.toList
            (positionDeleteFiles d.deleteFiles)).toOption <;>
            simp [build_toOption, hpro, hequ, hdels, hld, splitByDeletes]
        | cons file rest =>
          have hiff := @loaded_agree_iff P T env d.tableLocation.key.toList
            (positionDeleteFiles d.deleteFiles) (file :: rest) hdels projected d.schema
            hpro
          simpa [hequ, hdels] using hiff

end

section

def lakeFile (content : DataContent) (key : String) : DataFile Unit :=
  ⟨content, ⟨.s3, some "lake", key⟩, 0, (), 2, 100⟩

/-- One row of one data file is deleted by a file of the bucket `lake`. -/
def lake : ScanEnv Unit Unit where
  rules := objectStoreRules
  scheme := .s3
  bucket := "lake"
  deleteObject path :=
    if path = "t/data/d.parquet".toList then .ok [[⟨some "t/data/f.parquet", some 1⟩]]
    else .error (.config "no such object")
  prune _ _ files := .ok files
  projectedSchema _ := .ok ()
  limit := none

def tableAt (key : String) : TeoTableProvider Unit where
  metadata :=
    { tableLocation := ⟨.s3, some "lake", key⟩
      currentSnapshot := some ⟨[lakeFile .data "t/data/f.parquet"],
        [lakeFile .positionDelete "t/data/d.parquet"]⟩
      currentSchema := .ok ⟨0, [], []⟩
      currentPartitionSpec := .ok ⟨0, []⟩
      currentSortOrder := .ok ⟨0, []⟩ }
  schema := ⟨0, [], []⟩
  built := rfl

def descriptorAt (key : String) : PinnedDescriptor Unit :=
  ⟨⟨.s3, some "lake", key⟩, ⟨0, [], []⟩, ⟨0, []⟩, [lakeFile .data "t/data/f.parquet"],
    [lakeFile .positionDelete "t/data/d.parquet"]⟩

/-- At the root of the bucket both scans find the delete file. -/
theorem scans_agree_at_root :
    snapshotScanDescriptor (tableAt "").metadata = .ok (some (descriptorAt "")) ∧
      SameScan (lake.planScan (tableAt "")) (lake.pinnedScanPlan (descriptorAt "")) :=
  ⟨rfl, (scans_agree_iff lake (tableAt "") (descriptorAt "") rfl ⟨rfl, rfl⟩).mpr
    (.inr (.inr (.inr (.inr ⟨⟨_, _, rfl⟩, .inl rfl⟩))))⟩

/-- Below a table location the node looks for the delete file where it is not. -/
theorem scans_differ_below_location :
    snapshotScanDescriptor (tableAt "t").metadata = .ok (some (descriptorAt "t")) ∧
      ¬ SameScan (lake.planScan (tableAt "t")) (lake.pinnedScanPlan (descriptorAt "t")) := by
  refine ⟨rfl, fun h => ?_⟩
  have hloc : (lake.planScan (tableAt "t")).toOption.isSome = false := by decide +kernel
  have hpin : (lake.pinnedScanPlan (descriptorAt "t")).toOption.isSome = true := by
    decide +kernel
  have hs : (lake.planScan (tableAt "t")).toOption =
      (lake.pinnedScanPlan (descriptorAt "t")).toOption := h
  rw [hs, hpin] at hloc
  cases hloc

end

end TeoDB.Query

import TeoDB.Catalog.CommitStatus
import TeoDB.Storage.Location

/-!
# Manifests

A snapshot lists manifests, and a manifest lists files. A replace cannot take files
out of a manifest; it records the paths that it supersedes in the summary of its
snapshot, and whoever lists the live files of a snapshot leaves out every path that
some snapshot of the lineage records.

## Implementation notes

Manifests never change, so they are part of the snapshot that lists them. A lineage is followed
from parent to parent, as long as there is fuel; `none` is a lineage that does not end within the
number of snapshots, which the source follows for ever. Partition values are a parameter.
-/

namespace TeoDB.Catalog

open TeoDB.Core Lib Storage Storage.Wal

/-- A file as a manifest records it. -/
structure IcebergDataFile (P : Type) where
  content : DataContent
  filePath : String
  partition : P
  recordCount : Nat
  fileSizeInBytes : Nat
deriving DecidableEq

structure ManifestEntry (P : Type) where
  alive : Bool
  dataFile : IcebergDataFile P
deriving DecidableEq

structure Manifest (P : Type) where
  manifestPath : String
  partitionSpecId : Int
  entries : List (ManifestEntry P)
deriving DecidableEq

structure IcebergSnapshot (P : Type) where
  snapshotId : Int
  parentSnapshotId : Option Int
  timestampMs : Int
  summary : Properties
  manifestList : List (Manifest P)
deriving DecidableEq

structure IcebergTable (P : Type) where
  tableUuid : Uuid
  location : String
  currentSnapshotId : Option Int
  snapshots : List (IcebergSnapshot P)
  properties : Properties
deriving DecidableEq

/-- A recorded file with the specification of its manifest. -/
structure LoadedIcebergDataFile (P : Type) where
  file : IcebergDataFile P
  partitionSpecId : Int
deriving DecidableEq

/-- The serialised form of a list of paths. -/
structure PathsCodec where
  toJson : List String → String
  fromJson : String → Except String (List String)
  fromJson_toJson : ∀ paths, fromJson (toJson paths) = .ok paths

namespace IcebergTable

variable {P : Type} (codec : PathsCodec) (t : IcebergTable P)

def snapshotById (id : Int) : Option (IcebergSnapshot P) :=
  t.snapshots.find? fun snapshot => snapshot.snapshotId = id

def currentSnapshot : Option (IcebergSnapshot P) := t.currentSnapshotId.bind t.snapshotById

/-- The paths that a snapshot supersedes. -/
def markedPaths (snapshot : IcebergSnapshot P) : TeoDBResult (List String) :=
  match snapshot.summary.find? removedDataFilesProp with
  | none => .ok []
  | some raw =>
    match codec.fromJson raw with
    | .ok paths => .ok paths
    | .error error => .error (.catalog
        s!"failed to parse {removedDataFilesProp} on snapshot {snapshot.snapshotId}: {error}")

/-- The paths that the lineage of a snapshot supersedes. -/
def removedPathsFrom : Nat → Option Int → Option (TeoDBResult (List String))
  | _, none => some (.ok [])
  | 0, some _ => none
  | fuel + 1, some id =>
    match t.snapshotById id with
    | none => some (.error (.catalog
        s!"snapshot {id} referenced by current lineage is missing from table metadata"))
    | some snapshot =>
      match markedPaths codec snapshot with
      | .error error => some (.error error)
      | .ok paths =>
        (removedPathsFrom fuel snapshot.parentSnapshotId).map fun rest =>
          rest.map (paths ++ ·)

def removedDataFilePaths (id : Option Int) : Option (TeoDBResult (List String)) :=
  t.removedPathsFrom codec t.snapshots.length id

end IcebergTable

section

variable {P : Type}

/-- Every entry of a snapshot's manifests, with the specification of its manifest. -/
def IcebergSnapshot.loadedEntries (snapshot : IcebergSnapshot P) :
    List (Bool × LoadedIcebergDataFile P) :=
  snapshot.manifestList.flatMap fun manifest =>
    manifest.entries.map fun entry => (entry.alive, ⟨entry.dataFile, manifest.partitionSpecId⟩)

/-- The entries that are alive and not superseded. -/
def IcebergSnapshot.liveFiles (snapshot : IcebergSnapshot P) (removed : List String) :
    List (LoadedIcebergDataFile P) :=
  (snapshot.loadedEntries.filter fun e => e.1 && !removed.contains e.2.file.filePath).map Prod.snd

variable (codec : PathsCodec) (t : IcebergTable P)

/-- The live files of a snapshot of the table. -/
def IcebergTable.liveDataFilesOf (id : Option Int) :
    Option (TeoDBResult (List (LoadedIcebergDataFile P))) :=
  match id.bind t.snapshotById with
  | none => some (.ok [])
  | some snapshot =>
    (t.removedDataFilePaths codec id).map fun removed =>
      removed.map snapshot.liveFiles

/-- The live files of the current snapshot. -/
def IcebergTable.liveDataFiles : Option (TeoDBResult (List (LoadedIcebergDataFile P))) :=
  t.liveDataFilesOf codec t.currentSnapshotId

end

structure DataFile (P : Type) where
  content : DataContent
  path : ObjectLocation
  partitionSpecId : Int
  partitionValues : P
  recordCount : Nat
  fileSizeBytes : Nat
deriving DecidableEq

/-- Bare paths are those of local files. -/
def icebergLocationToTeodb (location : String) : TeoDBResult ObjectLocation :=
  let canonical := if containsText location "://" then location else "file://" ++ location
  (ObjectLocation.parse canonical).mapError fun error => .catalog error.text

lemma containsText_scheme {text : String} {sch : StorageScheme} {rest : List Char}
    (h : text.toList = schemeChars sch ++ rest) : containsText text "://" = true := by
  rw [containsText, h, List.any_eq_true]
  refine ⟨':' :: '/' :: '/' :: rest, ?_, by simp⟩
  rw [List.mem_tails]
  cases sch with
  | s3 => exact ⟨['s', '3'], rfl⟩
  | gcs => exact ⟨['g', 's'], rfl⟩
  | azureBlob => exact ⟨['a', 'b', 'f', 's'], rfl⟩
  | «local» => exact ⟨['f', 'i', 'l', 'e'], rfl⟩

lemma toUri_scheme (l : ObjectLocation) :
    ∃ rest, l.toUri.toList = schemeChars l.scheme ++ rest := by
  obtain ⟨sch, bucket, key⟩ := l
  cases sch <;> exact ⟨_, by simp [ObjectLocation.toUri, StorageScheme.uriPrefix, schemeChars]; rfl⟩

lemma icebergLocationToTeodb_normal {path : String} {l : ObjectLocation}
    (h : icebergLocationToTeodb path = .ok l) : l.Normal := by
  unfold icebergLocationToTeodb at h
  cases hps : ObjectLocation.parse
      (if containsText path "://" then path else "file://" ++ path) with
  | error e => simp [hps, Except.mapError] at h
  | ok parsed =>
    simp only [hps, Except.mapError, Except.ok.injEq] at h
    exact h ▸ ObjectLocation.parse_normal hps

/-- The location of a recorded path renders as that path exactly if it is in normal form. -/
theorem toUri_icebergLocation_iff {path : String} {l : ObjectLocation}
    (h : icebergLocationToTeodb path = .ok l) : l.toUri = path ↔ NormalUri path := by
  constructor
  · exact fun heq => ⟨l, icebergLocationToTeodb_normal h, heq⟩
  · rintro ⟨l', hnor, rfl⟩
    obtain ⟨rest, hr⟩ := toUri_scheme l'
    simp only [icebergLocationToTeodb, containsText_scheme hr, if_true,
      ObjectLocation.parse_toUri hnor, Except.mapError, Except.ok.injEq] at h
    rw [h]

section

variable {P : Type}

def icebergDataFileToTeodb (loaded : LoadedIcebergDataFile P) : TeoDBResult (DataFile P) :=
  (icebergLocationToTeodb loaded.file.filePath).map fun path =>
    { content := loaded.file.content
      path := path
      partitionSpecId := loaded.partitionSpecId
      partitionValues := loaded.file.partition
      recordCount := loaded.file.recordCount
      fileSizeBytes := loaded.file.fileSizeInBytes }

def icebergDataFilesToTeodb : List (LoadedIcebergDataFile P) → TeoDBResult (List (DataFile P))
  | [] => .ok []
  | loaded :: rest =>
    match icebergDataFileToTeodb loaded with
    | .error error => .error error
    | .ok file => (icebergDataFilesToTeodb rest).map (file :: ·)

/-- A converted file has the location of its recorded path. -/
theorem path_of_icebergDataFileToTeodb {ld : LoadedIcebergDataFile P} {file : DataFile P}
    (h : icebergDataFileToTeodb ld = .ok file) :
    icebergLocationToTeodb ld.file.filePath = .ok file.path := by
  unfold icebergDataFileToTeodb at h
  generalize icebergLocationToTeodb ld.file.filePath = location at h ⊢
  cases location with
  | error e => cases h
  | ok path =>
    cases h
    rfl

lemma forall₂_icebergDataFilesToTeodb {ld : List (LoadedIcebergDataFile P)}
    {fs : List (DataFile P)} (h : icebergDataFilesToTeodb ld = .ok fs) :
    List.Forall₂ (fun l file => icebergDataFileToTeodb l = .ok file) ld fs := by
  induction ld generalizing fs with
  | nil =>
    cases h
    exact .nil
  | cons l rest ih =>
    unfold icebergDataFilesToTeodb at h
    split at h
    · cases h
    · rename_i file hf
      generalize hr : icebergDataFilesToTeodb rest = converted at h
      cases converted with
      | error e => cases h
      | ok others =>
        cases h
        exact .cons hf (ih hr)

def teodbDataFileToIceberg (file : DataFile P) : IcebergDataFile P where
  content := file.content
  filePath := file.path.toUri
  partition := file.partitionValues
  recordCount := file.recordCount
  fileSizeInBytes := file.fileSizeBytes

end

section

variable {P : Type} {codec : PathsCodec} {t t' : IcebergTable P}

/-- A lookup is kept when snapshots are added behind those that are there. -/
structure Grows (t t' : IcebergTable P) : Prop where
  snapshots : t.snapshots <+: t'.snapshots

lemma Grows.refl (t : IcebergTable P) : Grows t t := ⟨List.prefix_rfl⟩

lemma Grows.trans {t'' : IcebergTable P} (h : Grows t t') (h' : Grows t' t'') : Grows t t'' :=
  ⟨h.snapshots.trans h'.snapshots⟩

lemma Grows.snapshotById (h : Grows t t') {id : Int} {sn : IcebergSnapshot P}
    (hf : t.snapshotById id = some sn) : t'.snapshotById id = some sn := by
  obtain ⟨added, hadded⟩ := h.snapshots
  unfold IcebergTable.snapshotById at hf ⊢
  rw [← hadded, List.find?_append, hf, Option.some_or]

/-- A lineage that could be read is read alike after the history has grown. -/
theorem Grows.removedPathsFrom (h : Grows t t') {fuel fuel' : Nat} {id : Option Int}
    {paths : List String} (hfuel : fuel ≤ fuel')
    (hpat : t.removedPathsFrom codec fuel id = some (.ok paths)) :
    t'.removedPathsFrom codec fuel' id = some (.ok paths) := by
  induction fuel generalizing fuel' id paths with
  | zero =>
    cases id with
    | none => simpa [IcebergTable.removedPathsFrom] using hpat
    | some id => cases hpat
  | succ fuel ih =>
    cases id with
    | none => simpa [IcebergTable.removedPathsFrom] using hpat
    | some id =>
      obtain ⟨fuel', rfl⟩ : ∃ n, fuel' = n + 1 := ⟨fuel' - 1, by omega⟩
      simp only [IcebergTable.removedPathsFrom] at hpat ⊢
      cases hf : t.snapshotById id with
      | none => simp [hf] at hpat
      | some sn =>
        rw [hf] at hpat
        rw [h.snapshotById hf]
        cases hmar : IcebergTable.markedPaths codec sn with
        | error e => simp [hmar] at hpat
        | ok marked =>
          simp only [hmar, Option.map_eq_some_iff] at hpat ⊢
          obtain ⟨rest, hr, heq⟩ := hpat
          cases rest with
          | error e => cases heq
          | ok rest => exact ⟨.ok rest, ih (by omega) hr, heq⟩

/-- What a snapshot shows does not change when the history grows. -/
theorem Grows.liveDataFilesOf (h : Grows t t') {id : Int} {sn : IcebergSnapshot P}
    {live : List (LoadedIcebergDataFile P)} (hf : t.snapshotById id = some sn)
    (hl : t.liveDataFilesOf codec (some id) = some (.ok live)) :
    t'.liveDataFilesOf codec (some id) = some (.ok live) := by
  simp only [IcebergTable.liveDataFilesOf, Option.bind_some, hf, Option.map_eq_some_iff] at hl
  simp only [IcebergTable.liveDataFilesOf, Option.bind_some, h.snapshotById hf,
    Option.map_eq_some_iff]
  obtain ⟨rem, hrm, heq⟩ := hl
  cases rem with
  | error e => cases heq
  | ok paths =>
    refine ⟨.ok paths, ?_, heq⟩
    exact h.removedPathsFrom h.snapshots.length_le hrm

end

/-- Every character of a path is marked, and a path ends with a semicolon. -/
def encodePaths : List String → List Char
  | [] => []
  | path :: rest => path.toList.flatMap (fun c => ['+', c]) ++ ';' :: encodePaths rest

/-- The characters of the path that is being read come first. -/
def decodePaths : List Char → List Char → Except String (List String)
  | [], [] => .ok []
  | path, '+' :: c :: rest => decodePaths (path ++ [c]) rest
  | path, ';' :: rest => (decodePaths [] rest).map (String.ofList path :: ·)
  | _, _ => .error "unexpected character"

lemma decodePaths_marked (path chars rest : List Char) :
    decodePaths path (chars.flatMap (fun c => ['+', c]) ++ rest) =
      decodePaths (path ++ chars) rest := by
  induction chars generalizing path with
  | nil => simp
  | cons c chars ih =>
    simp only [List.flatMap_cons, List.cons_append, List.nil_append, decodePaths, ih]
    simp

lemma decodePaths_encodePaths (paths : List String) :
    decodePaths [] (encodePaths paths) = .ok paths := by
  induction paths with
  | nil => rfl
  | cons path rest ih =>
    rw [encodePaths, decodePaths_marked, List.nil_append, decodePaths, ih]
    simp [Except.map]

def plainCodec : PathsCodec where
  toJson paths := String.ofList (encodePaths paths)
  fromJson raw := decodePaths [] raw.toList
  fromJson_toJson paths := by simp [decodePaths_encodePaths]

end TeoDB.Catalog

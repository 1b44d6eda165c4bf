import TeoDB.Catalog.Retention
import TeoDB.Lib.Async

/-!
# The orphan sweeper

A sweep lists the objects under the `data/` prefix of a table and deletes those that no retained
snapshot records and that are old enough.

## Implementation notes

Modification times and ages are in nanoseconds. A manifest path is compared by its key, without
scheme and bucket. A failure to resolve the storage is one of the listing.
-/

namespace TeoDB.Distributed

open TeoDB.Core Lib Catalog Storage

structure ObjectMeta where
  path : String
  lastModified : Int
deriving DecidableEq

structure SweepReport where
  scanned : Nat
  deleted : Nat
  retained : Nat
deriving DecidableEq

/-- The settings of a sweeper. Without a policy the whole history is protected. -/
structure OrphanSweeper where
  minAge : Nat
  retention : Option SnapshotRetention
deriving DecidableEq

structure ProtectedFiles where
  keys : List String
  retainedSnapshots : List Int
  expiredSnapshots : Nat
deriving DecidableEq

inductive SweepCall where
  | expireStale
  | activeSnapshots
  | loadTable
  | loadAllReferencedFilePaths
  | loadRetainedFilePaths (retention : SnapshotRetention) (protectedIds : List Int)
  | list (dataPrefix : String)
  | now
  | delete (path : String)

/-- The answers; of a table only its location is read. -/
def SweepAnswer : SweepCall → Type
  | .expireStale => TeoDBResult Nat
  | .activeSnapshots => TeoDBResult (List Int)
  | .loadTable => TeoDBResult ObjectLocation
  | .loadAllReferencedFilePaths => TeoDBResult (List String)
  | .loadRetainedFilePaths _ _ => TeoDBResult RetainedFileSet
  | .list _ => TeoDBResult (List ObjectMeta)
  | .now => Int
  | .delete _ => TeoDBResult Unit

def sweepInterface : Interface := ⟨Empty, SweepCall, SweepAnswer⟩

abbrev SweepProg (S α : Type) := Async sweepInterface S TeoDBError α

/-- The bucket-relative key of a referenced file. -/
def referencedKey (uri : String) : String :=
  match ObjectLocation.parse uri with
  | .ok location => location.key
  | .error _ => uri

def trimEndSlashes (text : String) : String :=
  String.ofList (text.toList.reverse.dropWhile (· = '/')).reverse

/-- The data prefix ends with a slash, which makes it a segment boundary. -/
def dataPrefixOf (tablePrefix : String) : String :=
  if tablePrefix = "" then "data/" else trimEndSlashes tablePrefix ++ "/data/"

def startsWith (text beginning : String) : Bool := beginning.toList.isPrefixOf text.toList

/-- An object dated after the clock has no age. -/
def ageOf (now lastModified : Int) : Nat := (now - lastModified).toNat

/-- The checks that an object passes before it is deleted. -/
def isCandidate (minAge : Nat) (dataPrefix : String) (keys : List String) (now : Int)
    (object : ObjectMeta) : Bool :=
  !keys.contains object.path && startsWith object.path dataPrefix &&
    !decide (ageOf now object.lastModified < minAge)

section

variable {S : Type} (sweeper : OrphanSweeper)

def activePins : SweepProg S (List Int) := do
  let _ ← Async.request (I := sweepInterface) .expireStale
  let pins ← Async.request (I := sweepInterface) .activeSnapshots
  Async.lift pins

def collectProtectedFiles (pinned : List Int) : SweepProg S ProtectedFiles :=
  match sweeper.retention with
  | none => do
    let loaded ← Async.request (I := sweepInterface) .loadAllReferencedFilePaths
    let paths ← Async.lift loaded
    pure ⟨paths.map referencedKey, [], 0⟩
  | some retention => do
    let loaded ← Async.request (I := sweepInterface) (.loadRetainedFilePaths retention pinned)
    let retained ← Async.lift loaded
    pure ⟨retained.paths.map referencedKey, retained.retainedSnapshots,
      retained.expiredSnapshots⟩

/-- The data prefix of a table and the objects under it. -/
def listDataObjects (tableLocation : String) : SweepProg S (String × List ObjectMeta) := do
  let location ← Async.lift ((ObjectLocation.parse tableLocation).mapError
    fun error => TeoDBError.catalog error.text)
  let listed ← Async.request (I := sweepInterface) (.list (dataPrefixOf location.key))
  let objects ← Async.lift listed
  pure (dataPrefixOf location.key, objects)

/-- A pin outside the retained set, if the policy has expired a snapshot. -/
def pinsChangedDuringSweep (files : ProtectedFiles) : SweepProg S Bool :=
  if 0 < files.expiredSnapshots then do
    let read ← Async.request (I := sweepInterface) .activeSnapshots
    let pinsNow ← Async.lift read
    pure (pinsNow.any fun id => !files.retainedSnapshots.contains id)
  else pure false

def callDelete (path : String) : SweepProg S (TeoDBResult Unit) :=
  Async.request (I := sweepInterface) (.delete path)

/-- Delete the candidates one after another and count those that were deleted. -/
def deleteEach (isOrphan : ObjectMeta → Bool) : List ObjectMeta → SweepProg S Nat
  | [] => pure 0
  | object :: rest =>
    if isOrphan object then do
      let result ← callDelete object.path
      let deleted ← deleteEach isOrphan rest
      match result with
      | .ok _ => pure (deleted + 1)
      | .error _ => pure deleted
    else deleteEach isOrphan rest

def callNow : SweepProg S Int := Async.request (I := sweepInterface) .now

def deleteCandidates (dataPrefix : String) (objects : List ObjectMeta) (keys : List String) :
    SweepProg S Nat := do
  let now ← callNow
  deleteEach (isCandidate sweeper.minAge dataPrefix keys now) objects

/-- Sweep the orphaned data files of a table. -/
def sweep : SweepProg S SweepReport := do
  let pinned ← activePins
  let loaded ← Async.request (I := sweepInterface) .loadTable
  let location ← Async.lift loaded
  let files ← collectProtectedFiles sweeper pinned
  let listing ← listDataObjects location.toUri
  let changed ← pinsChangedDuringSweep files
  if changed then pure ⟨listing.2.length, 0, listing.2.length⟩
  else do
    let deleted ← deleteCandidates sweeper listing.1 listing.2 files.keys
    pure ⟨listing.2.length, deleted, listing.2.length - deleted⟩

end

end TeoDB.Distributed

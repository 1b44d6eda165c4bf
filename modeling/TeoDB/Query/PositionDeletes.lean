import TeoDB.Catalog.Manifests
import TeoDB.Lib.Rows

/-!
# Scans with position deletes

A position-delete file lists paths of data files with positions of rows in them. A scan reads all
of them into one map and leaves out the rows at the positions that are recorded for the key of a
data file. A recorded path is a key or a URI; it counts for every file whose key it ends with.

## Implementation notes

A delete file is given as batches of entries whose columns can be null.
-/

namespace TeoDB.Query

open TeoDB.Core Lib Lib.Rows Catalog Storage Storage.Wal

/-- A row of a position-delete file. -/
structure DeleteRow where
  filePath : Option String
  pos : Option Int
deriving DecidableEq

/-- The positions that are recorded for each path. -/
abbrev PositionDeleteMap := OrdMap String (Finset Int)

inductive DataFusionError where
  | notImplemented (message : String)
  | external (error : TeoDBError)
deriving DecidableEq

/-- A recorded path names a key if it is the key or ends with it after a slash. -/
def recordsKey (recorded key : String) : Bool :=
  recorded == key ||
    (stripSuffix? key.toList recorded.toList).any fun before => before.getLast? == some '/'

section

/-- The positions of one path. -/
def positionsOf (m : PositionDeleteMap) (path : String) : Finset Int := (m.find? path).getD ∅

def addDelete (m : PositionDeleteMap) (path : String) (pos : Int) : PositionDeleteMap :=
  m.insert path (insert pos (positionsOf m path))

@[simp] lemma mem_positionsOf_addDelete {m : PositionDeleteMap} {path path' : String}
    {pos p : Int} : p ∈ positionsOf (addDelete m path pos) path' ↔
      (path' = path ∧ p = pos) ∨ p ∈ positionsOf m path' := by
  simp only [addDelete, positionsOf, OrdMap.find?_insert]
  split_ifs with h
  · simp [h]
  · simp [h]

/-- The compactor's reading of a delete file, which skips rows with a null. -/
def addReadRow (m : PositionDeleteMap) : DeleteRow → PositionDeleteMap
  | ⟨some path, some pos⟩ => addDelete m path pos
  | _ => m

def readPositionDeletes (batches : List (List DeleteRow)) : PositionDeleteMap :=
  batches.flatten.foldl addReadRow OrdMap.empty

/-- The scan's reading of a row, which refuses rows that name no row of a file. -/
def parseRow (sourcePath : String) (row : Nat) (m : PositionDeleteMap) :
    DeleteRow → TeoDBResult PositionDeleteMap
  | ⟨some path, some pos⟩ =>
    if path = "" then .error (.parquet
      s!"empty position-delete file path at row {row} in {sourcePath}")
    else if pos < 0 then .error (.parquet
      s!"negative position-delete row position {pos} at row {row} in {sourcePath}")
    else .ok (addDelete m path pos)
  | _ => .error (.parquet s!"null position-delete entry at row {row} in {sourcePath}")

def parseBatch (sourcePath : String) : Nat → PositionDeleteMap → List DeleteRow →
    TeoDBResult PositionDeleteMap
  | _, m, [] => .ok m
  | row, m, entry :: rest =>
    match parseRow sourcePath row m entry with
    | .error error => .error error
    | .ok m => parseBatch sourcePath (row + 1) m rest

def parsePositionDeleteBytes (sourcePath : String) : PositionDeleteMap → List (List DeleteRow) →
    TeoDBResult PositionDeleteMap
  | m, [] => .ok m
  | m, batch :: rest =>
    match parseBatch sourcePath 0 m batch with
    | .error error => .error error
    | .ok m => parsePositionDeleteBytes sourcePath m rest

variable {P : Type}

def positionDeleteFiles (deleteFiles : List (DataFile P)) : List (DataFile P) :=
  deleteFiles.filter fun d => d.content = .positionDelete

/-- All deleted positions recorded for a data file. -/
def positionsForFile (m : PositionDeleteMap) (key : String) : Finset Int :=
  m.entries.foldl (fun merged e => if recordsKey e.1 key then merged ∪ e.2 else merged) ∅

end

section

/-- The rows that a scan can read. -/
def DeleteRow.Readable (row : DeleteRow) : Prop :=
  ∃ path pos, row = ⟨some path, some pos⟩ ∧ path ≠ "" ∧ 0 ≤ pos

lemma parseRow_readable {row : DeleteRow} (h : row.Readable) (sourcePath : String) (n : Nat)
    (m : PositionDeleteMap) : parseRow sourcePath n m row = .ok (addReadRow m row) := by
  obtain ⟨path, pos, rfl, hp, hpos⟩ := h
  simp [parseRow, addReadRow, hp, not_lt.mpr hpos]

lemma parseBatch_readable {bt : List DeleteRow} (h : ∀ row ∈ bt, row.Readable)
    (sourcePath : String) (n : Nat) (m : PositionDeleteMap) :
    parseBatch sourcePath n m bt = .ok (bt.foldl addReadRow m) := by
  induction bt generalizing n m with
  | nil => rfl
  | cons row rest ih =>
    rw [List.forall_mem_cons] at h
    simp only [parseBatch, parseRow_readable h.1, ih h.2, List.foldl_cons]

lemma parsePositionDeleteBytes_readable {bs : List (List DeleteRow)}
    (h : ∀ row ∈ bs.flatten, row.Readable) (sourcePath : String) (m : PositionDeleteMap) :
    parsePositionDeleteBytes sourcePath m bs = .ok (bs.flatten.foldl addReadRow m) := by
  induction bs generalizing m with
  | nil => rfl
  | cons batch rest ih =>
    rw [List.flatten_cons, List.forall_mem_append] at h
    simp only [parsePositionDeleteBytes, parseBatch_readable h.1, ih h.2, List.flatten_cons,
      List.foldl_append]

lemma mem_positionsOf_foldl {rows : List DeleteRow} {m : PositionDeleteMap} {path : String}
    {p : Int} : p ∈ positionsOf (rows.foldl addReadRow m) path ↔
      ⟨some path, some p⟩ ∈ rows ∨ p ∈ positionsOf m path := by
  induction rows generalizing m with
  | nil => simp
  | cons row rest ih =>
    rw [List.foldl_cons, ih, List.mem_cons, or_comm (a := _ = row), or_assoc]
    apply or_congr Iff.rfl
    obtain ⟨filePath, pos⟩ := row
    cases filePath with
    | none => simp [addReadRow]
    | some path' =>
      cases pos with
      | none => simp [addReadRow]
      | some pos => simp [addReadRow]

lemma mem_positionsForFile {m : PositionDeleteMap} {key : String} {p : Int} :
    p ∈ positionsForFile m key ↔ ∃ path, recordsKey path key = true ∧ p ∈ positionsOf m path := by
  have hfold : ∀ (es : List (String × Finset Int)) (merged : Finset Int),
      p ∈ es.foldl (fun merged e => if recordsKey e.1 key then merged ∪ e.2 else merged)
        merged ↔ p ∈ merged ∨ ∃ e ∈ es, recordsKey e.1 key = true ∧ p ∈ e.2 := by
    intro es
    induction es with
    | nil => simp
    | cons e rest ih =>
      intro merged
      rw [List.foldl_cons, ih, List.exists_mem_cons_iff, ← or_assoc]
      apply or_congr _ Iff.rfl
      split_ifs with he
      · simp [he]
      · simp [he]
  rw [positionsForFile, hfold]
  constructor
  · rintro (hp | ⟨e, he, hrecs, hp⟩)
    · cases hp
    · refine ⟨e.1, hrecs, ?_⟩
      rw [positionsOf, (OrdMap.find?_eq_some_iff m e.1 e.2).mpr he]
      exact hp
  · rintro ⟨path, hrecs, hp⟩
    rw [positionsOf] at hp
    cases hf : m.find? path with
    | none => simp [hf] at hp
    | some ps =>
      rw [hf] at hp
      exact .inr ⟨(path, ps), (OrdMap.find?_eq_some_iff m _ _).mp hf, hrecs, hp⟩

end

section

variable {P : Type}

/-- The files without deletes, and the others with their positions. -/
def splitByDeletes (files : List (DataFile P)) :
    Option PositionDeleteMap → List (DataFile P) × List (DataFile P × Finset Int)
  | none => (files, [])
  | some deletes =>
    (files.filter fun f => positionsForFile deletes f.path.key = ∅,
      (files.filter fun f => positionsForFile deletes f.path.key ≠ ∅).map fun f =>
        (f, positionsForFile deletes f.path.key))

end

end TeoDB.Query

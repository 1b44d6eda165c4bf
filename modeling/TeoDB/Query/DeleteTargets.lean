import TeoDB.Query.PositionDeletes
import TeoDB.Storage.KeyParts

/-!
# The files that position deletes hit

An entry of a delete file names a data file of the table, either by its key or by its URI. A scan
takes an entry for every file whose key the recorded path ends with after a slash, also if it is an
entry of another file.
-/

namespace TeoDB.Query

open TeoDB.Core Lib Storage Storage.Wal

lemma recordsKey_iff {recorded key : String} : recordsKey recorded key = true ↔
      recorded = key ∨ ∃ bef, recorded.toList = bef ++ '/' :: key.toList := by
  rw [recordsKey, Bool.or_eq_true, beq_iff_eq, Option.any_eq_true]
  apply or_congr Iff.rfl
  constructor
  · rintro ⟨stem, hs, hl⟩
    obtain ⟨bef, rfl⟩ := List.getLast?_eq_some_iff.mp (beq_iff_eq.mp hl)
    refine ⟨bef, ?_⟩
    simpa using eq_of_stripSuffix? hs
  · rintro ⟨bef, hrec⟩
    have hrec : recorded.toList = (bef ++ ['/']) ++ key.toList := by simpa using hrec
    refine ⟨bef ++ ['/'], ?_, by simp⟩
    rw [hrec, stripSuffix?_append]

/-- An entry of a delete file for the data file with a key. -/
structure FileDelete where
  key : String
  named : key ≠ ""
  byUri : Bool
  pos : Nat

namespace FileDelete

/-- The path that an entry records for a file of a table. -/
def filePath (table : ObjectLocation) (e : FileDelete) : String :=
  if e.byUri then { table with key := e.key }.toUri else e.key

def row (table : ObjectLocation) (e : FileDelete) : DeleteRow :=
  ⟨some (e.filePath table), some e.pos⟩

lemma uriPrefix_ends (sch : StorageScheme) (bk : Option String) :
    ∃ bef, (StorageScheme.uriPrefix bk sch).toList = bef ++ ['/'] := by
  cases sch with
  | «local» => exact ⟨"file:/".toList, by simp [StorageScheme.uriPrefix]⟩
  | s3 => exact ⟨("s3://" ++ bk.getD "").toList, by simp [StorageScheme.uriPrefix]⟩
  | gcs => exact ⟨("gs://" ++ bk.getD "").toList, by simp [StorageScheme.uriPrefix]⟩
  | azureBlob => exact ⟨("abfs://" ++ bk.getD "").toList, by simp [StorageScheme.uriPrefix]⟩

lemma recordsKey_filePath (tbl : ObjectLocation) (e : FileDelete) :
    recordsKey (e.filePath tbl) e.key = true := by
  rw [recordsKey_iff, filePath]
  split_ifs with huri
  · obtain ⟨bef, hbf⟩ := uriPrefix_ends tbl.scheme tbl.bucket
    exact .inr ⟨bef, by simp [ObjectLocation.toUri, hbf]⟩
  · exact .inl rfl

lemma filePath_ne_empty (tbl : ObjectLocation) (e : FileDelete) : e.filePath tbl ≠ "" := by
  intro hem
  rcases recordsKey_iff.mp (e.recordsKey_filePath tbl) with hkey | ⟨before, hbf⟩
  · exact e.named (hkey.symm.trans hem)
  · simp [hem] at hbf

lemma readable_row (tbl : ObjectLocation) (e : FileDelete) : (e.row tbl).Readable :=
  ⟨_, _, rfl, e.filePath_ne_empty tbl, Int.natCast_nonneg e.pos⟩

end FileDelete

/-- The positions that the entries of a file name. -/
def namedPositions (entries : List FileDelete) (key : String) : Finset Int :=
  ((entries.filter fun e => e.key = key).map fun e => (e.pos : Int)).toFinset

lemma mem_namedPositions {es : List FileDelete} {key : String} {p : Int} :
    p ∈ namedPositions es key ↔ ∃ e ∈ es, e.key = key ∧ (e.pos : Int) = p := by
  simp [namedPositions, and_assoc]

lemma mem_positionsForFile_rows {tbl : ObjectLocation} {es : List FileDelete}
    {key : String} {p : Int} :
    p ∈ positionsForFile (readPositionDeletes [es.map (FileDelete.row tbl)]) key ↔
      ∃ e ∈ es, recordsKey (e.filePath tbl) key = true ∧ (e.pos : Int) = p := by
  rw [mem_positionsForFile]
  simp only [readPositionDeletes, mem_positionsOf_foldl, List.flatten_singleton, List.mem_map]
  simp only [positionsOf, OrdMap.find?_empty, Option.getD_none, Finset.notMem_empty, or_false,
    FileDelete.row, DeleteRow.mk.injEq, Option.some.injEq]
  constructor
  · rintro ⟨path, hrecs, e, he, rfl, hpos⟩
    exact ⟨e, he, hrecs, hpos⟩
  · rintro ⟨e, he, hrecs, hpos⟩
    exact ⟨_, hrecs, e, he, rfl, hpos⟩

/-- A scan gives every file of a snapshot exactly the positions that are named for it, if entries of
other files only repeat them. -/
theorem positionsForFile_eq_named_iff (table : ObjectLocation) (sourcePath : String)
    (keys : Finset String) (entries : List FileDelete) :
    ∃ deletes, parsePositionDeleteBytes sourcePath OrdMap.empty
        [entries.map (FileDelete.row table)] = .ok deletes ∧
      ((∀ key ∈ keys, positionsForFile deletes key = namedPositions entries key) ↔
        ∀ key ∈ keys, ∀ e ∈ entries, e.key ≠ key → (e.filePath table = key ∨
            ∃ before, (e.filePath table).toList = before ++ '/' :: key.toList) →
          ∃ e' ∈ entries, e'.key = key ∧ e'.pos = e.pos) := by
  have hrd : ∀ row ∈ [entries.map (FileDelete.row table)].flatten, row.Readable := by
    intro row hrow
    rw [List.flatten_singleton] at hrow
    obtain ⟨e, -, rfl⟩ := List.mem_map.mp hrow
    exact e.readable_row table
  refine ⟨_, parsePositionDeleteBytes_readable hrd sourcePath _, ?_⟩
  change (∀ key ∈ keys, positionsForFile
    (readPositionDeletes [entries.map (FileDelete.row table)]) key = _) ↔ _
  simp only [← recordsKey_iff]
  apply forall₂_congr
  intro key hkey
  constructor
  · intro hex e he _ hrecs
    have hmem : (e.pos : Int) ∈ namedPositions entries key := by
      rw [← hex]
      exact mem_positionsForFile_rows.mpr ⟨e, he, hrecs, rfl⟩
    obtain ⟨e', he', hnms, hpos⟩ := mem_namedPositions.mp hmem
    exact ⟨e', he', hnms, Int.ofNat_inj.mp hpos⟩
  · intro hrep
    ext p
    rw [mem_positionsForFile_rows, mem_namedPositions]
    constructor
    · rintro ⟨e, he, hrecs, rfl⟩
      by_cases hnms : e.key = key
      · exact ⟨e, he, hnms, rfl⟩
      · obtain ⟨e', he', hnames', hpos⟩ := hrep e he hnms hrecs
        exact ⟨e', he', hnames', by rw [hpos]⟩
    · rintro ⟨e, he, rfl, rfl⟩
      exact ⟨e, he, e.recordsKey_filePath table, rfl⟩

/-- An entry for a file below a further directory also deletes from the file whose key is
the rest of its path. -/
theorem delete_hits_another_file :
    ∃ deletes, parsePositionDeleteBytes "deletes.parquet" OrdMap.empty
        [[FileDelete.row ⟨.s3, some "lake", "t"⟩ ⟨"b/a/f.parquet", by decide, false, 0⟩]] =
          .ok deletes ∧
      positionsForFile deletes "a/f.parquet" = {0} ∧
      namedPositions [⟨"b/a/f.parquet", by decide, false, 0⟩] "a/f.parquet" = ∅ :=
  ⟨_, rfl, by decide, by decide⟩

end TeoDB.Query

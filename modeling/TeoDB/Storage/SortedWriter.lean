import TeoDB.Core.Schema
import TeoDB.Lib.LexOrder
import TeoDB.Storage.ParquetWriter

/-!
# Sorted and rolled Parquet files

`write_sorted_rolled` sorts the batches of a flush by the columns of the sort order and streams
them into rolled files, each of which records its number of rows and the sort order it claims.

The transform of a sort field is not read, so the files are in the order that they record only when
source values and transformed values order the rows alike (`writeSortedRolled_conserves_iff`).

## Implementation notes

The schema of a write is the list of field ids that parse as numbers. Arrow's sort, which returns
the positions of the rows in some order that agrees with the columns, and the Parquet encoder are
parameters. Fewer than `2^32` files are written, so the counter of files is a natural number.
-/

namespace TeoDB.Storage

open TeoDB.Core Lib Lib.LexOrder

/-- The values of a row by column. -/
abbrev BatchRow (V : Type) := List (Option V)

structure SortOptions where
  descending : Bool
  nullsFirst : Bool
deriving DecidableEq

structure SortColumn (V : Type) where
  values : List (Option V)
  options : SortOptions

/-- What the writer reads of its settings. -/
structure WriteSpec where
  fieldIds : List (Option Int)
  sortOrder : SortOrder
  rowGroupTargetBytes : Nat
  rowGroupTargetRows : Nat

/-- A file that was uploaded. -/
structure WrittenFile (V : Type) where
  path : ObjectLocation
  sortOrderId : Int
  recordCount : Nat
  rowGroups : List (List (BatchRow V))

def WrittenFile.rows {V : Type} (file : WrittenFile V) : List (BatchRow V) :=
  file.rowGroups.flatten

section

variable {V : Type} [LinearOrder V]

def SortOptions.compare (options : SortOptions) : Option V → Option V → Ordering :=
  nullable options.nullsFirst (directed options.descending Ord.compare)

/-- Compare two positions by the values that the columns hold there. -/
def compareAt (columns : List (SortColumn V)) : Nat → Nat → Ordering :=
  lex (columns.map fun column i j =>
    column.options.compare (column.values.getD i none) (column.values.getD j none))

/-- Arrow's `lexsort_to_indices`. It says nothing about the order of ties. -/
structure SortKernel (V : Type) [LinearOrder V] where
  lexsortToIndices : List (SortColumn V) → List Nat
  perm : ∀ columns n, columns ≠ [] → (∀ column ∈ columns, column.values.length = n) →
    (lexsortToIndices columns).Perm (List.range n)
  sorted : ∀ columns,
    (lexsortToIndices columns).Pairwise fun i j => (compareAt columns i j).isLE

/-- The Parquet encoder. -/
structure ParquetEncoder (R : Type) where
  encoded : List (List R) → Nat
  rowGroups : List (List R) → List (List R)
  flatten_rowGroups : ∀ batches, (rowGroups batches).flatten = batches.flatten

def SortField.options (field : SortField) : SortOptions where
  descending := field.direction == .desc
  nullsFirst := field.nullOrder == .nullsFirst

/-- The position of the column of a field. -/
def columnIndex (fieldIds : List (Option Int)) (sourceId : Int) : Option Nat :=
  fieldIds.findIdx? fun id => id == some sourceId

/-- The columns of the sort order that the schema has. -/
def sortColumns (spec : WriteSpec) (rows : List (BatchRow V)) : List (SortColumn V) :=
  spec.sortOrder.fields.filterMap fun field =>
    (columnIndex spec.fieldIds field.sourceId).map fun index : Nat =>
      { values := rows.map fun row => row.getD index none, options := SortField.options field }

/-- Arrow's `take` on all columns of a batch. -/
def takeRows (rows : List (BatchRow V)) (indices : List Nat) : List (BatchRow V) :=
  indices.filterMap fun i => rows[i]?

def sortBatches (kernel : SortKernel V) (batches : List (List (BatchRow V))) (spec : WriteSpec) :
    List (List (BatchRow V)) :=
  if batches.isEmpty ∨ spec.sortOrder.fields.isEmpty then batches
  else
    let combined := batches.flatten
    let columns := sortColumns spec combined
    if columns.isEmpty then batches
    else [takeRows combined (kernel.lexsortToIndices columns)]

/-- The slices of a batch from an offset on, one for each round of the loop. -/
def sliceFrom {R : Type} (batch : List R) (chunkRows : Nat) : Nat → Nat → List (List R)
  | 0, _ => []
  | rounds + 1, offset =>
    if offset < batch.length then
      let len := min chunkRows (batch.length - offset)
      (batch.drop offset).take len :: sliceFrom batch chunkRows rounds (offset + len)
    else []

def sliceBatch {R : Type} (batch : List R) (chunkRows : Nat) : List (List R) :=
  if batch.length ≤ chunkRows then [batch] else sliceFrom batch chunkRows batch.length 0

/-- Close an open file: the counts are read from its footer. -/
def finishFile (encoder : ParquetEncoder (BatchRow V)) (spec : WriteSpec)
    (file : ObjectLocation × List (List (BatchRow V))) : WrittenFile V where
  path := file.1
  sortOrderId := spec.sortOrder.orderId
  recordCount := ((encoder.rowGroups file.2).map List.length).sum
  rowGroups := encoder.rowGroups file.2

def writeSortedRolled (kernel : SortKernel V) (encoder : ParquetEncoder (BatchRow V))
    (base : ObjectLocation) (batches : List (List (BatchRow V))) (spec : WriteSpec) :
    List (WrittenFile V) :=
  if batches.isEmpty then []
  else
    let sorted := sortBatches kernel batches spec
    let chunkRows := max spec.rowGroupTargetRows 1
    let chunked := sorted.flatMap fun batch => sliceBatch batch chunkRows
    (writeSortedStream encoder.encoded (spec.rowGroupTargetBytes * 8 % 2 ^ 64) base chunked).map
      (finishFile encoder spec)

/-- The transforms of a sort order on values that are present. -/
structure ValueTransforms (V : Type) where
  apply : PartitionTransform → V → Option V
  identity : ∀ v, apply .identity v = some v

variable (transforms : ValueTransforms V)

/-- The value that a sort field orders a row by. -/
def sortValue (spec : WriteSpec) (field : SortField) (row : BatchRow V) : Option V :=
  (columnIndex spec.fieldIds field.sourceId).bind fun index =>
    (row.getD index none).bind (transforms.apply field.transform)

/-- Compare two rows by the sort order. -/
def compareBySortOrder (spec : WriteSpec) :
    BatchRow V → BatchRow V → Ordering :=
  lex (spec.sortOrder.fields.map fun field a b =>
    (SortField.options field).compare (sortValue transforms spec field a)
      (sortValue transforms spec field b))

/-- Compare two rows by the columns that the writer sorts. -/
def compareBySortColumns (spec : WriteSpec) : BatchRow V → BatchRow V → Ordering :=
  lex (spec.sortOrder.fields.filterMap fun field =>
    (columnIndex spec.fieldIds field.sourceId).map fun index a b =>
      (SortField.options field).compare (a.getD index none) (b.getD index none))

/-- The files hold the rows of the batches in the order asked for, each with its count and
under its own key. -/
structure Conserves (transforms : ValueTransforms V) (spec : WriteSpec)
    (batches : List (List (BatchRow V))) (files : List (WrittenFile V)) : Prop where
  perm : (files.flatMap WrittenFile.rows).Perm batches.flatten
  sorted : (files.flatMap WrittenFile.rows).Pairwise fun a b =>
    (compareBySortOrder transforms spec a b).isLE
  input_order : spec.sortOrder.fields = [] → files.flatMap WrittenFile.rows = batches.flatten
  recordCount : ∀ file ∈ files, file.recordCount = file.rows.length
  rows_ne_nil : ∀ file ∈ files, file.rows ≠ []
  keys_nodup : (files.map fun file => file.path.key).Nodup

lemma transCmp_sortOptions (options : SortOptions) :
    Std.TransCmp (options.compare : Option V → Option V → Ordering) :=
  transCmp_nullable (transCmp_directed inferInstance _) _

lemma compare_eq_iff (options : SortOptions) (a b : Option V) :
    options.compare a b = .eq ↔ a = b :=
  nullable_directed_eq_iff _ _ a b

lemma transCmp_compareBySortColumns (spec : WriteSpec) :
    Std.TransCmp (compareBySortColumns (V := V) spec) := by
  apply transCmp_lex
  intro cmp hcmp
  obtain ⟨field, _, hfield⟩ := List.mem_filterMap.mp hcmp
  obtain ⟨i, _, rfl⟩ := Option.map_eq_some_iff.mp hfield
  exact transCmp_comap (transCmp_sortOptions _) fun row : BatchRow V => row.getD i none

/-- Rows that the sorted columns do not tell apart are alike to the sort order. -/
theorem compareBySortOrder_of_tie {spec : WriteSpec} {a b : BatchRow V}
    (h : compareBySortColumns spec a b = .eq) : compareBySortOrder transforms spec a b = .eq := by
  apply lex_eq_iff.mpr
  intro cmp hcmp
  obtain ⟨fl, hfield, rfl⟩ := List.mem_map.mp hcmp
  apply (compare_eq_iff _ _ _).mpr
  cases hix : columnIndex spec.fieldIds fl.sourceId with
  | none => simp [sortValue, hix]
  | some i =>
    have htie := lex_eq_iff.mp h _
      (List.mem_filterMap.mpr ⟨fl, hfield, by rw [hix, Option.map_some]⟩)
    have hv : a.getD i none = b.getD i none := (compare_eq_iff _ _ _).mp htie
    simp only [sortValue, hix, Option.bind_some, hv]

/-- The sort order of plain columns is the order of the columns that the schema has. -/
theorem compareBySortOrder_of_identity {spec : WriteSpec}
    (h : ∀ fl ∈ spec.sortOrder.fields, fl.transform = .identity) (a b : BatchRow V) :
    compareBySortOrder transforms spec a b = compareBySortColumns spec a b := by
  simp only [compareBySortOrder, compareBySortColumns]
  generalize spec.sortOrder.fields = fields at h
  induction fields with
  | nil => rfl
  | cons fl rest ih =>
    have hr := ih fun f hf => h f (List.mem_cons_of_mem _ hf)
    have hidn : ∀ val : Option V, val.bind (transforms.apply fl.transform) = val := by
      intro val
      rw [h fl List.mem_cons_self]
      cases val with
      | none => rfl
      | some v => exact transforms.identity v
    cases hix : columnIndex spec.fieldIds fl.sourceId with
    | none =>
      have htie : (SortField.options fl).compare (none : Option V) none = .eq :=
        (compare_eq_iff _ _ _).mpr rfl
      rw [List.map_cons, lex_cons, hr, List.filterMap_cons_none (by rw [hix]; rfl)]
      simp only [sortValue, hix, Option.bind_none, htie, Ordering.eq_then]
    | some index =>
      rw [List.map_cons, lex_cons, hr, List.filterMap_cons_some (by rw [hix]; rfl), lex_cons]
      simp only [sortValue, hix, Option.bind_some, hidn]

omit [LinearOrder V] in
lemma takeRows_range (rows : List (BatchRow V)) :
    takeRows rows (List.range rows.length) = rows := by
  induction rows with
  | nil => rfl
  | cons row rest ih =>
    have hfirst : (row :: rest)[0]? = some row := rfl
    rw [takeRows, List.length_cons, List.range_succ_eq_map,
      List.filterMap_cons_some hfirst, List.filterMap_map]
    exact congrArg (row :: ·) ih

variable {rows : List (BatchRow V)}

omit [LinearOrder V] in
lemma takeRows_perm {indices : List Nat} (h : indices.Perm (List.range rows.length)) :
    (takeRows rows indices).Perm rows := by
  calc
    (takeRows rows indices).Perm (takeRows rows (List.range rows.length)) := h.filterMap _
    _ = rows := takeRows_range rows

variable {spec : WriteSpec}

/-- The columns hold at a position what the row there holds. -/
theorem compareAt_sortColumns {i j : Nat} {a b : BatchRow V} (ha : rows[i]? = some a)
    (hb : rows[j]? = some b) :
    compareAt (sortColumns spec rows) i j = compareBySortColumns spec a b := by
  simp only [compareAt, sortColumns, compareBySortColumns]
  generalize spec.sortOrder.fields = fields
  induction fields with
  | nil => rfl
  | cons fl rest ih =>
    cases hix : columnIndex spec.fieldIds fl.sourceId with
    | none =>
      rw [List.filterMap_cons_none (by rw [hix]; rfl),
        List.filterMap_cons_none (by rw [hix]; rfl), ih]
    | some index =>
      rw [List.filterMap_cons_some (by rw [hix]; rfl),
        List.filterMap_cons_some (by rw [hix]; rfl), List.map_cons, lex_cons, lex_cons, ih]
      simp [List.getD_eq_getElem?_getD, ha, hb]

lemma takeRows_sorted {indices : List Nat}
    (h : indices.Pairwise fun i j => (compareAt (sortColumns spec rows) i j).isLE) :
    (takeRows rows indices).Pairwise fun a b => (compareBySortColumns spec a b).isLE := by
  apply List.Pairwise.filterMap _ _ h
  intro i j hij a ha b hb
  rw [← compareAt_sortColumns ha hb]
  exact hij

omit [LinearOrder V] in
lemma length_of_mem_sortColumns {col : SortColumn V} (h : col ∈ sortColumns spec rows) :
    col.values.length = rows.length := by
  obtain ⟨field, _, hfield⟩ := List.mem_filterMap.mp h
  obtain ⟨index, _, rfl⟩ := Option.map_eq_some_iff.mp hfield
  exact List.length_map _

lemma flatten_sortBatches_perm (kernel : SortKernel V) (batches : List (List (BatchRow V)))
    (spec : WriteSpec) : (sortBatches kernel batches spec).flatten.Perm batches.flatten := by
  simp only [sortBatches]
  split_ifs with hnone hcol
  · exact List.Perm.refl _
  · exact List.Perm.refl _
  · rw [List.flatten_singleton]
    apply takeRows_perm
    exact kernel.perm _ _ (by simpa using hcol) fun _ => length_of_mem_sortColumns

lemma isLE_of_sortColumns_nil (h : sortColumns spec rows = []) (a b : BatchRow V) :
    (compareBySortColumns spec a b).isLE := by
  have hfie : ∀ fl ∈ spec.sortOrder.fields, columnIndex spec.fieldIds fl.sourceId = none := by
    intro fl hfld
    simpa using List.filterMap_eq_nil_iff.mp h fl hfld
  have hnil : compareBySortColumns spec a b = .eq := by
    apply lex_eq_iff.mpr
    intro cmp hcmp
    obtain ⟨fl, hfld, hs⟩ := List.mem_filterMap.mp hcmp
    rw [hfie fl hfld] at hs
    cases hs
  rw [hnil]
  rfl

lemma flatten_sortBatches_sorted (kernel : SortKernel V) (batches : List (List (BatchRow V)))
    (spec : WriteSpec) : (sortBatches kernel batches spec).flatten.Pairwise fun a b =>
      (compareBySortColumns spec a b).isLE := by
  simp only [sortBatches]
  split_ifs with hn hcol
  · rcases hn with hem | hfie
    · rw [List.isEmpty_iff.mp hem]
      exact List.Pairwise.nil
    · have hnil : sortColumns spec batches.flatten = [] := by
        rw [sortColumns, List.isEmpty_iff.mp hfie, List.filterMap_nil]
      exact List.pairwise_of_forall (isLE_of_sortColumns_nil hnil)
  · exact List.pairwise_of_forall (isLE_of_sortColumns_nil (List.isEmpty_iff.mp hcol))
  · rw [List.flatten_singleton]
    exact takeRows_sorted (kernel.sorted _)

end

section

/-- The slices from an offset on are the rows from there on. -/
theorem flatten_sliceFrom {R : Type} {bt : List R} {chunkRows rounds off : Nat}
    (hchunk : 0 < chunkRows) (hrounds : bt.length ≤ off + rounds) :
    (sliceFrom bt chunkRows rounds off).flatten = bt.drop off := by
  induction rounds generalizing off with
  | zero => rw [sliceFrom, List.flatten_nil, List.drop_eq_nil_of_le (by omega)]
  | succ rounds ih =>
    rw [sliceFrom]
    split_ifs with hoffset
    · rw [List.flatten_cons, ih (by omega), ← List.drop_drop, List.take_append_drop]
    · rw [List.flatten_nil, List.drop_eq_nil_of_le (by omega)]

lemma flatten_sliceBatch {R : Type} (bt : List R) {chunkRows : Nat} (h : 0 < chunkRows) :
    (sliceBatch bt chunkRows).flatten = bt := by
  rw [sliceBatch]
  split_ifs with hsmall
  · exact List.flatten_singleton
  · rw [flatten_sliceFrom h (by omega), List.drop_zero]

lemma flatten_flatMap_sliceBatch {R : Type} (batches : List (List R)) {chunkRows : Nat}
    (h : 0 < chunkRows) :
    (batches.flatMap fun bt => sliceBatch bt chunkRows).flatten = batches.flatten := by
  induction batches with
  | nil => rfl
  | cons bt rest ih =>
    rw [List.flatMap_cons, List.flatten_append, flatten_sliceBatch bt h, ih, List.flatten_cons]

variable {V : Type} [LinearOrder V] {kernel : SortKernel V}
  {encoder : ParquetEncoder (BatchRow V)} {base : ObjectLocation}
  {batches : List (List (BatchRow V))} {spec : WriteSpec}

omit [LinearOrder V] in
lemma rows_finishFile (file : ObjectLocation × List (List (BatchRow V))) :
    (finishFile encoder spec file).rows = file.2.flatten :=
  encoder.flatten_rowGroups file.2

omit [LinearOrder V] in
lemma recordCount_finishFile (file : ObjectLocation × List (List (BatchRow V))) :
    (finishFile encoder spec file).recordCount = (finishFile encoder spec file).rows.length :=
  List.length_flatten.symm

variable (kernel encoder base batches spec) in
/-- The files of a write are files of its chunked stream. -/
theorem exists_writeSortedRolled : ∃ chunked : List (List (BatchRow V)),
      chunked.flatten = (sortBatches kernel batches spec).flatten ∧
        writeSortedRolled kernel encoder base batches spec =
          (writeSortedStream encoder.encoded (spec.rowGroupTargetBytes * 8 % 2 ^ 64) base
            chunked).map (finishFile encoder spec) := by
  rw [writeSortedRolled]
  split_ifs with hem
  · refine ⟨[], ?_, rfl⟩
    simp [sortBatches, List.isEmpty_iff.mp hem]
  · exact ⟨_, flatten_flatMap_sliceBatch _ (by omega), rfl⟩

variable (kernel encoder base batches spec) in
lemma rows_writeSortedRolled :
    (writeSortedRolled kernel encoder base batches spec).flatMap WrittenFile.rows =
      (sortBatches kernel batches spec).flatten := by
  obtain ⟨chunked, hchu, hfs⟩ :=
    exists_writeSortedRolled kernel encoder base batches spec
  have hr : ∀ fs : List (ObjectLocation × List (List (BatchRow V))),
      (fs.map (finishFile encoder spec)).flatMap WrittenFile.rows =
        (fs.flatMap Prod.snd).flatten := by
    intro fs
    induction fs with
    | nil => rfl
    | cons file rest ih =>
      rw [List.map_cons, List.flatMap_cons, ih, rows_finishFile, List.flatMap_cons,
        List.flatten_append]
  rw [hfs, hr, writeSortedStream, flatten_writeBatches, List.flatten_nil, List.nil_append, hchu]

lemma recordCount_of_mem_writeSortedRolled {file : WrittenFile V}
    (h : file ∈ writeSortedRolled kernel encoder base batches spec) :
    file.recordCount = file.rows.length := by
  obtain ⟨chunked, _, hfs⟩ := exists_writeSortedRolled kernel encoder base batches spec
  rw [hfs] at h
  obtain ⟨open_, _, rfl⟩ := List.mem_map.mp h
  exact recordCount_finishFile open_

variable (kernel encoder base batches spec) in
lemma sum_recordCount_writeSortedRolled :
    ((writeSortedRolled kernel encoder base batches spec).map WrittenFile.recordCount).sum =
      batches.flatten.length := by
  rw [List.map_congr_left fun file hf => recordCount_of_mem_writeSortedRolled hf,
    ← List.length_flatMap, rows_writeSortedRolled]
  exact (flatten_sortBatches_perm kernel batches spec).length_eq

variable (kernel encoder base batches spec) in
lemma keys_writeSortedRolled_nodup :
    ((writeSortedRolled kernel encoder base batches spec).map fun file => file.path.key).Nodup := by
  obtain ⟨chunked, _, hfs⟩ := exists_writeSortedRolled kernel encoder base batches spec
  rw [hfs, List.map_map]
  exact keys_writeSortedStream_nodup chunked

/-- Up to the order of the rows, a write conserves them whatever its sort order. -/
theorem writeSortedRolled_conserves_iff_sorted (transforms : ValueTransforms V) :
    Conserves transforms spec batches (writeSortedRolled kernel encoder base batches spec) ↔
      (sortBatches kernel batches spec).flatten.Pairwise fun a b =>
        (compareBySortOrder transforms spec a b).isLE := by
  have hr := rows_writeSortedRolled kernel encoder base batches spec
  constructor
  · intro h
    rw [← hr]
    exact h.sorted
  · intro hsrt
    obtain ⟨chunked, _, hfs⟩ := exists_writeSortedRolled kernel encoder base batches spec
    refine ⟨?_, ?_, ?_, ?_, ?_, ?_⟩
    · rw [hr]
      exact flatten_sortBatches_perm kernel batches spec
    · rw [hr]
      exact hsrt
    · intro hfie
      rw [hr]
      simp [sortBatches, hfie]
    · exact fun file hf => recordCount_of_mem_writeSortedRolled hf
    · intro file hf
      rw [hfs] at hf
      obtain ⟨open_, ho, rfl⟩ := List.mem_map.mp hf
      rw [rows_finishFile]
      exact flatten_ne_nil_of_mem_writeSortedStream ho
    · exact keys_writeSortedRolled_nodup kernel encoder base batches spec

/-- A write keeps its rows in the recorded order exactly when no two rows are ordered differently by
source columns and by transformed values. -/
theorem writeSortedRolled_conserves_iff (transforms : ValueTransforms V) (kernel : SortKernel V)
    (encoder : ParquetEncoder (BatchRow V)) (base : ObjectLocation)
    (batches : List (List (BatchRow V))) (spec : WriteSpec) :
    Conserves transforms spec batches (writeSortedRolled kernel encoder base batches spec) ↔
      ∀ a ∈ batches.flatten, ∀ b ∈ batches.flatten, (compareBySortColumns spec a b).isLE →
        (compareBySortOrder transforms spec a b).isLE := by
  have htrans : Std.TransCmp (compareBySortColumns (V := V) spec) :=
    transCmp_compareBySortColumns spec
  have htie : ∀ a b : BatchRow V, compareBySortColumns spec a b = .eq →
      (compareBySortOrder transforms spec a b).isLE := by
    intro a b ht
    rw [compareBySortOrder_of_tie transforms ht]
    rfl
  have hmem : ∀ row, row ∈ (sortBatches kernel batches spec).flatten ↔ row ∈ batches.flatten :=
    fun _ => (flatten_sortBatches_perm kernel batches spec).mem_iff
  rw [writeSortedRolled_conserves_iff_sorted,
    pairwise_iff_of_sorted htie (flatten_sortBatches_sorted kernel batches spec)]
  simp only [hmem]

end

section

variable {V : Type} [LinearOrder V]

lemma transCmp_compareAt (cols : List (SortColumn V)) : Std.TransCmp (compareAt cols) := by
  apply transCmp_lex
  intro cmp hcmp
  obtain ⟨col, _, rfl⟩ := List.mem_map.mp hcmp
  exact transCmp_comap (transCmp_sortOptions _) fun i => col.values.getD i none

/-- Insertion sort of the positions. -/
def insertionKernel (V : Type) [LinearOrder V] : SortKernel V where
  lexsortToIndices columns :=
    (List.range ((columns.head?.map fun column => column.values.length).getD 0)).insertionSort
      fun i j => (compareAt columns i j).isLE
  perm columns n hne hlength := by
    cases columns with
    | nil => exact absurd rfl hne
    | cons column rest =>
      rw [List.head?_cons, Option.map_some, Option.getD_some,
        hlength column List.mem_cons_self]
      exact List.perm_insertionSort _ _
  sorted columns := by
    have hcmp := transCmp_compareAt columns
    have htotal : Std.Total fun i j => (compareAt columns i j).isLE = true :=
      ⟨fun i j => by
        rw [hcmp.eq_swap (a := j), Ordering.isLE_swap]
        cases compareAt columns i j <;> simp⟩
    have htrans : IsTrans Nat fun i j => (compareAt columns i j).isLE = true :=
      ⟨fun _ _ _ => hcmp.isLE_trans⟩
    exact List.pairwise_insertionSort _ _

/-- An encoder with one row group for each batch. -/
def batchEncoder (R : Type) : ParquetEncoder R where
  encoded batches := batches.flatten.length
  rowGroups batches := batches
  flatten_rowGroups _ := rfl

/-- Truncation of numbers to multiples of a width. -/
def truncations : ValueTransforms Int where
  apply transform v :=
    match transform with
    | .truncate width => some (v - v % width)
    | _ => some v
  identity _ := rfl

/-- Ordered by tens of the first column, then by the second one. -/
def tensThenSecond : WriteSpec where
  fieldIds := [some 1, some 2]
  sortOrder :=
    { orderId := 1
      fields := [⟨1, .truncate 10, .asc, .nullsFirst⟩, ⟨2, .identity, .asc, .nullsFirst⟩] }
  rowGroupTargetBytes := 1024
  rowGroupTargetRows := 1024

/-- Ordered by plain columns, the second one first and from its greatest value on. -/
def secondThenFirst : WriteSpec where
  fieldIds := [some 1, some 2]
  sortOrder :=
    { orderId := 2
      fields := [⟨2, .identity, .desc, .nullsLast⟩, ⟨1, .identity, .asc, .nullsFirst⟩] }
  rowGroupTargetBytes := 1
  rowGroupTargetRows := 1

/-- Plain columns are written in their order, here to files of eight rows or less. -/
theorem rows_of_plain_columns_conserved :
    Conserves truncations secondThenFirst [[[some 11, some 2], [none, some 7]], [[some 5, none]]]
      (writeSortedRolled (insertionKernel Int) (batchEncoder _)
        ⟨.s3, some "lake", "t/data/w/c-f0000.parquet"⟩
        [[[some 11, some 2], [none, some 7]], [[some 5, none]]] secondThenFirst) := by
  apply (writeSortedRolled_conserves_iff _ _ _ _ _ _).mpr
  intro a _ b _ hab
  rw [compareBySortOrder_of_identity truncations (by decide)]
  exact hab

/-- Two rows of one ten are written by their first column. -/
theorem rows_of_one_ten_not_conserved :
    ¬ Conserves truncations tensThenSecond [[[some 11, some 2], [some 12, some 1]]]
      (writeSortedRolled (insertionKernel Int) (batchEncoder _)
        ⟨.s3, some "lake", "t/data/w/c-f0000.parquet"⟩
        [[[some 11, some 2], [some 12, some 1]]] tensThenSecond) := by
  rw [writeSortedRolled_conserves_iff_sorted]
  decide +kernel

end

end TeoDB.Storage

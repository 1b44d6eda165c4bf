import TeoDB.Catalog.PartitionTransform
import TeoDB.Lib.Groups
import TeoDB.Lib.OrdMap

/-!
# Partitioning the rows of a flush

The rows of a flush are grouped by the partition values of their rows. The key of a group
is the JSON text of the values, and the group has the values of its first row. JSON has no
text for a NaN or an infinity, and Iceberg does not hold every scalar: `partitionBatches`
is right about a row if neither matters for it.

## Implementation notes

The text of a key is known up to its reading: texts are equal just if the field ids and the scalars
are, where the floating-point numbers that are not finite all read as nulls. Nothing is said about
the order of the groups.
-/

namespace TeoDB.Ingest.Flush

open TeoDB.Core Lib Catalog

/-- The columns of a row. -/
abbrev Row := List TeoScalar

/-- A scalar as JSON shows it. -/
inductive JsonScalar where
  | float32Null
  | float64Null
  | plain (v : TeoScalar)
deriving DecidableEq

def jsonScalar : TeoScalar → JsonScalar
  | .float32 x => if x.isFinite then .plain (.float32 x) else .float32Null
  | .float64 x => if x.isFinite then .plain (.float64 x) else .float64Null
  | v => .plain v

/-- The texts of partition keys. -/
structure KeyTexts where
  Text : Type
  decEq : DecidableEq Text
  serialize : List (Int × JsonScalar) → Text
  serialize_injective : Function.Injective serialize

instance (texts : KeyTexts) : DecidableEq texts.Text := texts.decEq

abbrev PartitionValues := OrdMap Int TeoScalar

structure PartitionedBatches where
  partitionValues : PartitionValues
  batches : List (List Row)

section

variable (lib : IcebergTransforms) (texts : KeyTexts) (schema : SchemaDefinition)
  (spec : PartitionSpec)

/-- The column that a partition field is derived from, with its index. -/
def sourceColumn (sourceId : Int) : Option (ColumnMeta × Nat) :=
  schema.columns.zipIdx.find? fun entry => entry.1.id = sourceId

def scalarAt (v : TeoScalar) (dataType : TeoDataType) : TeoDBResult TeoScalar :=
  if v.isNull then .ok .null
  else if typeOf v = some dataType then .ok v
  else
    let actual := (typeOf v).elim "Null" lib.debugType
    .error (.internal (s!"partition column Arrow array does not match TeoDB type " ++
      s!"{lib.debugType dataType}: actual {actual}"))

/-- The value of a partition field; a batch without the column is a panic. -/
def partitionValue (row : Row) (field : PartitionField) : Fallible TeoScalar :=
  match sourceColumn schema field.sourceId with
  | none => some (.error (.internal s!"partition source field {field.sourceId} not found"))
  | some (column, columnIdx) =>
    match row[columnIdx]? with
    | none => none
    | some v =>
      match scalarAt lib v column.dataType with
      | .error error => some (.error error)
      | .ok source =>
        applyPartitionTransformToScalar lib source column.dataType field.transform

/-- The values of the fields in their order. -/
def orderedValues (row : Row) : List PartitionField → Fallible (List (Int × TeoScalar))
  | [] => some (.ok [])
  | field :: rest =>
    Fallible.bind (partitionValue lib schema row field) fun value =>
      Fallible.bind (orderedValues row rest) fun ordered =>
        some (.ok ((field.fieldId, value) :: ordered))

def keyText (ordered : List (Int × TeoScalar)) : texts.Text :=
  texts.serialize (ordered.map fun entry => (entry.1, jsonScalar entry.2))

def partitionKeyForRow (row : Row) : Fallible (texts.Text × PartitionValues) :=
  Fallible.bind (orderedValues lib schema row spec.fields) fun ordered =>
    some (.ok (keyText texts ordered, OrdMap.empty.insertAll ordered))

abbrev RowsByKey := List (texts.Text × (PartitionValues × List Row))

abbrev GroupsByKey := List (texts.Text × PartitionedBatches)

/-- Sort the rows of a batch by their keys. -/
def groupRows : List Row → RowsByKey texts → Fallible (RowsByKey texts)
  | [], rowsByKey => some (.ok rowsByKey)
  | row :: rest, rowsByKey =>
    Fallible.bind (partitionKeyForRow lib texts schema spec row) fun keyed =>
      groupRows rest (Groups.upsert keyed.1 (keyed.2, [])
        (fun group => (group.1, group.2 ++ [row])) rowsByKey)

/-- Add the rows of a batch to the groups of their keys. -/
def addRows (groups : GroupsByKey texts) (rowsByKey : RowsByKey texts) : GroupsByKey texts :=
  rowsByKey.foldl (fun groups entry => Groups.upsert entry.1 ⟨entry.2.1, []⟩
    (fun group => { group with batches := group.batches ++ [entry.2.2] }) groups) groups

def partitionLoop : List (List Row) → GroupsByKey texts → Fallible (GroupsByKey texts)
  | [], groups => some (.ok groups)
  | batch :: rest, groups =>
    Fallible.bind (groupRows lib texts schema spec batch []) fun rowsByKey =>
      partitionLoop rest (addRows texts groups rowsByKey)

def partitionBatches (batches : List (List Row)) : Fallible (List PartitionedBatches) :=
  Fallible.bind (partitionLoop lib texts schema spec batches []) fun groups =>
    some (.ok (groups.map Prod.snd))

end

/-- A row with its key and partition values. -/
structure KeyedRow (texts : KeyTexts) where
  key : texts.Text
  values : PartitionValues
  row : Row

section

variable {lib : IcebergTransforms} {texts : KeyTexts} {schema : SchemaDefinition}
  {spec : PartitionSpec}

/-- The code gives a row its key and values. -/
def Keyed (lib : IcebergTransforms) (texts : KeyTexts) (schema : SchemaDefinition)
    (spec : PartitionSpec) (k : KeyedRow texts) : Prop :=
  partitionKeyForRow lib texts schema spec k.row = some (.ok (k.key, k.values))

/-- What a group says of the rows with its key: the values of the first and all rows. -/
def summary : List (KeyedRow texts) → Option (PartitionValues × List Row)
  | [] => none
  | first :: rest => some (first.values, (first :: rest).map KeyedRow.row)

lemma summary_append (l l' : List (KeyedRow texts)) : summary (l ++ l') =
      (summary l).elim (summary l') fun s => some (s.1, s.2 ++ l'.map KeyedRow.row) := by
  cases l with
  | nil => rfl
  | cons first rest => simp [summary]

lemma groupRows_eq_ok {rows : List Row} {start rowsByKey : RowsByKey texts}
    (h : groupRows lib texts schema spec rows start = some (.ok rowsByKey)) :
    ∃ keyed : List (KeyedRow texts), keyed.map KeyedRow.row = rows ∧
      (∀ k ∈ keyed, Keyed lib texts schema spec k) ∧
      rowsByKey = keyed.foldl (fun tb k => Groups.upsert k.key (k.values, [])
        (fun g => (g.1, g.2 ++ [k.row])) tb) start := by
  induction rows generalizing start with
  | nil =>
    cases h
    exact ⟨[], rfl, fun k hk => absurd hk List.not_mem_nil, rfl⟩
  | cons row rest ih =>
    obtain ⟨keyed, hkey, hrest⟩ := Fallible.bind_eq_ok_iff.mp h
    obtain ⟨os, hr, hots, heq⟩ := ih hrest
    refine ⟨⟨keyed.1, keyed.2, row⟩ :: os, by rw [List.map_cons, hr], ?_, heq⟩
    rw [List.forall_mem_cons]
    exact ⟨hkey, hots⟩

lemma foldl_push_some (l : List (KeyedRow texts)) (values : PartitionValues) (rows : List Row) :
    l.foldl (fun v k => some ((v.getD (k.values, [])).1, (v.getD (k.values, [])).2 ++ [k.row]))
        (some (values, rows)) = some (values, rows ++ l.map KeyedRow.row) := by
  induction l generalizing rows with
  | nil => simp
  | cons k rest ih =>
    rw [List.foldl_cons]
    simp only [Option.getD_some]
    rw [ih, List.map_cons, List.append_assoc]
    rfl

lemma foldl_push (l : List (KeyedRow texts)) :
    l.foldl (fun v k => some ((v.getD (k.values, [])).1, (v.getD (k.values, [])).2 ++ [k.row]))
        none = summary l := by
  cases l with
  | nil => rfl
  | cons first rest =>
    rw [List.foldl_cons]
    simp only [Option.getD_none, List.nil_append]
    rw [foldl_push_some]
    rfl

/-- The groups of a table are those of some rows. -/
structure Describes (groups : GroupsByKey texts) (keyed : List (KeyedRow texts)) : Prop where
  nodup : (groups.map Prod.fst).Nodup
  found : ∀ k, (Groups.find k groups).map (fun group =>
      (group.partitionValues, group.batches.flatten)) = summary (keyed.filter fun r => r.key = k)

variable {gs : GroupsByKey texts}

lemma Describes.addRows {bef bt : List (KeyedRow texts)} (h : Describes gs bef) :
    Describes (addRows texts gs (bt.foldl (fun tbl k => Groups.upsert k.key (k.values, [])
        (fun g => (g.1, g.2 ++ [k.row])) tbl) [])) (bef ++ bt) := by
  constructor
  · exact Groups.nodup_keys_foldl_upsert _ _ _ _ h.nodup
  · intro k
    have hnd : ((bt.foldl (fun tbl k => Groups.upsert k.key (k.values, [])
        (fun g => (g.1, g.2 ++ [k.row])) tbl) []).map Prod.fst).Nodup :=
      Groups.nodup_keys_foldl_upsert _ _ _ _ List.nodup_nil
    have hbt := Groups.find_foldl_upsert bt KeyedRow.key (fun k => (k.values, []))
      (fun k g => (g.1, g.2 ++ [k.row])) [] k
    rw [Groups.find_nil, foldl_push] at hbt
    rw [Flush.addRows, Groups.find_foldl_upsert _ Prod.fst, Groups.filter_key hnd, hbt,
      List.filter_append, summary_append, ← h.found k]
    cases hsum : summary (bt.filter fun r => r.key = k) with
    | none =>
      have hnil : (bt.filter fun r => r.key = k) = [] := by
        cases hfil : bt.filter fun r => r.key = k with
        | nil => rfl
        | cons first rest => simp [hfil, summary] at hsum
      cases Groups.find k gs with
      | none => rfl
      | some g => simp [hnil]
    | some s =>
      have hr : (bt.filter fun r => r.key = k).map KeyedRow.row = s.2 := by
        cases hfil : bt.filter fun r => r.key = k with
        | nil => simp [hfil, summary] at hsum
        | cons first rest =>
          rw [hfil, summary, Option.some.injEq] at hsum
          rw [← hsum]
      cases Groups.find k gs with
      | none => simp
      | some g => simp [hr]

lemma partitionLoop_describes {bs : List (List Row)} {gs gs' : GroupsByKey texts}
    {bef : List (KeyedRow texts)} (hdes : Describes gs bef)
    (h : partitionLoop lib texts schema spec bs gs = some (.ok gs')) :
    ∃ keyed : List (KeyedRow texts), keyed.map KeyedRow.row = bs.flatten ∧
      (∀ k ∈ keyed, Keyed lib texts schema spec k) ∧ Describes gs' (bef ++ keyed) := by
  induction bs generalizing gs bef with
  | nil =>
    cases h
    exact ⟨[], rfl, fun k hk => absurd hk List.not_mem_nil, by rwa [List.append_nil]⟩
  | cons batch rest ih =>
    obtain ⟨rowsByKey, hbt, hr⟩ := Fallible.bind_eq_ok_iff.mp h
    obtain ⟨keyed, hrows, hkeyed, rfl⟩ := groupRows_eq_ok hbt
    obtain ⟨os, hots, hkeyed', hdes'⟩ := ih hdes.addRows hr
    refine ⟨keyed ++ os, by rw [List.map_append, hrows, hots, List.flatten_cons], ?_, ?_⟩
    · exact List.forall_mem_append.mpr ⟨hkeyed, hkeyed'⟩
    · rwa [← List.append_assoc]

/-- The groups of a flush are those of its rows, each with a key. -/
lemma partitionBatches_eq_ok {bs : List (List Row)} {out : List PartitionedBatches}
    (h : partitionBatches lib texts schema spec bs = some (.ok out)) :
    ∃ (keyed : List (KeyedRow texts)) (gs : GroupsByKey texts),
      keyed.map KeyedRow.row = bs.flatten ∧ (∀ k ∈ keyed, Keyed lib texts schema spec k) ∧
        Describes gs keyed ∧ out = gs.map Prod.snd := by
  obtain ⟨gs, hl, hout⟩ := Fallible.bind_eq_ok_iff.mp h
  have hst : Describes ([] : GroupsByKey texts) [] := ⟨List.nodup_nil, fun _ => rfl⟩
  obtain ⟨keyed, hr, hkeyed, hdes⟩ := partitionLoop_describes hst hl
  cases hout
  exact ⟨keyed, gs, hr, hkeyed, hdes, rfl⟩

variable {keyed : List (KeyedRow texts)}

/-- A group has the values of one of the rows with its key, and rows with that key. -/
lemma Describes.of_mem (h : Describes gs keyed) {k : texts.Text} {g : PartitionedBatches}
    (hmem : (k, g) ∈ gs) : g.batches.flatten = (keyed.filter fun r => r.key = k).map KeyedRow.row ∧
      ∃ first ∈ keyed, first.key = k ∧ g.partitionValues = first.values := by
  have hfnd := h.found k
  rw [(Groups.mem_iff_find h.nodup).mp hmem, Option.map_some] at hfnd
  cases hfil : keyed.filter fun r => r.key = k with
  | nil => simp [hfil, summary] at hfnd
  | cons first rest =>
    rw [hfil, summary, Option.some.injEq, Prod.mk.injEq] at hfnd
    obtain ⟨hkeyed, hkey⟩ := List.mem_filter.mp (hfil ▸ List.mem_cons_self)
    exact ⟨hfnd.2, first, hkeyed, by simpa using hkey, hfnd.1⟩

lemma Describes.exists_group (h : Describes gs keyed) {r : KeyedRow texts} (hr : r ∈ keyed) :
    ∃ g, (r.key, g) ∈ gs := by
  have hmem : r ∈ keyed.filter fun r' => r'.key = r.key :=
    List.mem_filter.mpr ⟨hr, decide_eq_true rfl⟩
  cases hf : Groups.find r.key gs with
  | some g => exact ⟨g, (Groups.mem_iff_find h.nodup).mpr hf⟩
  | none =>
    have hfnd := h.found r.key
    rw [hf] at hfnd
    cases hfil : keyed.filter fun r' => r'.key = r.key with
    | nil =>
      rw [hfil] at hmem
      cases hmem
    | cons first rest =>
      rw [hfil] at hfnd
      cases hfnd

/-- Every row is in one group. -/
lemma Describes.rows_perm (h : Describes gs keyed) :
    ((gs.map Prod.snd).flatMap fun g => g.batches.flatten).Perm (keyed.map KeyedRow.row) := by
  have hparts : ∀ en ∈ gs, en.2.batches.flatten =
      (keyed.filter fun r => r.key = en.1).map KeyedRow.row := by
    intro en hen
    exact (h.of_mem hen).1
  have hk : ∀ r ∈ keyed, r.key ∈ gs.map Prod.fst := by
    intro r hr
    obtain ⟨g, hg⟩ := h.exists_group hr
    exact List.mem_map.mpr ⟨_, hg, rfl⟩
  have hp := (Groups.flatMap_filter_perm h.nodup KeyedRow.key hk).map KeyedRow.row
  rw [List.flatMap_map, List.map_flatMap] at hp
  rwa [List.flatMap_map, List.flatMap_congr hparts]

/-- The columns of a row have the types of the schema. -/
def Matches (schema : SchemaDefinition) (row : Row) : Prop :=
  ∀ (columnIdx : Nat) column v, schema.columns[columnIdx]? = some column →
    row[columnIdx]? = some v → v = .null ∨ HasType column.dataType v

/-- The transform of a partition field, applied to a reading of the row's own value. -/
def transformOf (lib : IcebergTransforms) (schema : SchemaDefinition)
    (reading : TeoScalar → Option ScalarValue) (row : Row) (field : PartitionField) :
    Option ScalarValue :=
  match sourceColumn schema field.sourceId with
  | none => none
  | some (column, columnIdx) =>
    match row[columnIdx]? with
    | none => none
    | some v => transformedAs lib field.transform column.dataType (reading v)

lemma scalarAt_eq_ok {v src : TeoScalar} {t : TeoDataType}
    (h : scalarAt lib v t = .ok src) : src = v := by
  rw [scalarAt] at h
  split_ifs at h with hn
  · cases h
    cases v with
    | null => rfl
    | _ => cases hn
  · cases h
    rfl

variable {row : Row} {fl : PartitionField}

lemma partitionValue_eq_ok {s : TeoScalar} (h : partitionValue lib schema row fl = some (.ok s)) :
    ∃ col columnIdx v, sourceColumn schema fl.sourceId = some (col, columnIdx) ∧
      row[columnIdx]? = some v ∧
      applyPartitionTransformToScalar lib v col.dataType fl.transform = some (.ok s) := by
  unfold partitionValue at h
  split at h
  · cases h
  · rename_i col columnIdx hcol
    split at h
    · cases h
    · rename_i v hv
      split at h
      · cases h
      · rename_i source hsou
        rw [scalarAt_eq_ok hsou] at h
        exact ⟨col, columnIdx, v, hcol, hv, h⟩

lemma getElem?_of_sourceColumn {sourceId : Int} {col : ColumnMeta} {columnIdx : Nat}
    (h : sourceColumn schema sourceId = some (col, columnIdx)) :
    schema.columns[columnIdx]? = some col :=
  List.mem_zipIdx_iff_getElem?.mp (List.mem_of_find?_eq_some h)

/-- The partition value of a row is the transform of the value that Iceberg holds. -/
lemma denoted_partitionValue {s : TeoScalar} (hmt : Matches schema row)
    (h : partitionValue lib schema row fl = some (.ok s)) :
    denoted s = transformOf lib schema heldValue row fl := by
  obtain ⟨col, columnIdx, v, hcol, hv, hap⟩ := partitionValue_eq_ok h
  rw [denoted_apply (hmt columnIdx col v (getElem?_of_sourceColumn hcol) hv) hap]
  simp only [transformOf, hcol, hv]

lemma partitionValue_eq_of_denoted {row row' : Row} {s s' : TeoScalar}
    (h : partitionValue lib schema row fl = some (.ok s))
    (h' : partitionValue lib schema row' fl = some (.ok s')) (hden : denoted s = denoted s') :
    s = s' := by
  obtain ⟨column, columnIdx, v, hcol, -, hap⟩ := partitionValue_eq_ok h
  obtain ⟨column', columnIdx', v', hcol', -, hap'⟩ := partitionValue_eq_ok h'
  rw [hcol, Option.some.injEq, Prod.mk.injEq] at hcol'
  obtain ⟨rfl, rfl⟩ := hcol'
  exact apply_eq_of_denoted hap hap' hden

lemma transformOf_of_isFloat {y : ScalarValue}
    (h : transformOf lib schema heldValue row fl = some y) (hfloat : y.isFloat = true) :
    transformOf lib schema heldValue row fl = transformOf lib schema denoted row fl := by
  unfold transformOf at h ⊢
  cases hcol : sourceColumn schema fl.sourceId with
  | none => rfl
  | some en =>
    obtain ⟨column, columnIdx⟩ := en
    cases hv : row[columnIdx]? with
    | none => simp only [hv]
    | some v =>
      simp only [hcol, hv] at h ⊢
      exact transformedAs_of_isFloat h hfloat

variable {ordered : List (Int × TeoScalar)}

lemma orderedValues_cons_eq_ok {rest : List PartitionField}
    (h : orderedValues lib schema row (fl :: rest) = some (.ok ordered)) :
    ∃ v os, partitionValue lib schema row fl = some (.ok v) ∧
      orderedValues lib schema row rest = some (.ok os) ∧ ordered = (fl.fieldId, v) :: os := by
  obtain ⟨v, hv, h⟩ := Fallible.bind_eq_ok_iff.mp h
  obtain ⟨os, hots, h⟩ := Fallible.bind_eq_ok_iff.mp h
  cases h
  exact ⟨v, os, hv, hots, rfl⟩

variable {fls : List PartitionField}

lemma keys_orderedValues (h : orderedValues lib schema row fls = some (.ok ordered)) :
    ordered.map Prod.fst = fls.map PartitionField.fieldId := by
  induction fls generalizing ordered with
  | nil =>
    cases h
    rfl
  | cons field rest ih =>
    obtain ⟨value, others, -, hots, rfl⟩ := orderedValues_cons_eq_ok h
    rw [List.map_cons, List.map_cons, ih hots]

lemma mem_orderedValues (h : orderedValues lib schema row fls = some (.ok ordered))
    (hfld : fl ∈ fls) :
    ∃ v, partitionValue lib schema row fl = some (.ok v) ∧ (fl.fieldId, v) ∈ ordered := by
  induction fls generalizing ordered with
  | nil => cases hfld
  | cons first rest ih =>
    obtain ⟨v, others, hv, hots, rfl⟩ := orderedValues_cons_eq_ok h
    rcases List.mem_cons.mp hfld with rfl | hr
    · exact ⟨v, hv, List.mem_cons_self⟩
    · obtain ⟨v', hv', hmem⟩ := ih hots hr
      exact ⟨v', hv', List.mem_cons_of_mem _ hmem⟩

/-- The texts of two rows are the same if JSON shows the same for each field. -/
lemma keyText_eq_iff {row row' : Row} {ordered ordered' : List (Int × TeoScalar)}
    (h : orderedValues lib schema row fls = some (.ok ordered))
    (h' : orderedValues lib schema row' fls = some (.ok ordered')) :
    keyText texts ordered = keyText texts ordered' ↔
      ∀ fl ∈ fls, ∀ s s', partitionValue lib schema row fl = some (.ok s) →
        partitionValue lib schema row' fl = some (.ok s') → jsonScalar s = jsonScalar s' := by
  rw [keyText, keyText, texts.serialize_injective.eq_iff]
  induction fls generalizing ordered ordered' with
  | nil =>
    cases h
    cases h'
    simp
  | cons fl rest ih =>
    obtain ⟨v, others, hv, hots, rfl⟩ := orderedValues_cons_eq_ok h
    obtain ⟨v', others', hv', hots', rfl⟩ := orderedValues_cons_eq_ok h'
    rw [List.map_cons, List.map_cons, List.cons.injEq, ih hots hots',
      List.forall_mem_cons, Prod.mk.injEq]
    apply and_congr _ Iff.rfl
    simp only [hv, hv', Option.some.injEq, Except.ok.injEq, true_and]
    constructor
    · rintro heq s s' rfl rfl
      exact heq
    · intro hall
      exact hall v v' rfl rfl

/-- Every row is in one group, whose value for each field is the transform of the row's own
value. -/
structure Faithful (lib : IcebergTransforms) (schema : SchemaDefinition) (spec : PartitionSpec)
    (batches : List (List Row)) (groups : List PartitionedBatches) : Prop where
  conserved : (groups.flatMap fun group => group.batches.flatten).Perm batches.flatten
  transform : ∀ group ∈ groups, ∀ row ∈ group.batches.flatten, ∀ field ∈ spec.fields,
    ∃ value, group.partitionValues.find? field.fieldId = some value ∧
      denoted value = transformOf lib schema denoted row field

/-- Values that JSON shows alike: the same ones, and numbers that are not finite. -/
inductive ShownAlike : Option ScalarValue → Option ScalarValue → Prop
  | same (value : Option ScalarValue) : ShownAlike value value
  | float32 {x y : F32} (hx : x.isFinite = false) (hy : y.isFinite = false) :
      ShownAlike (some (.float32 x)) (some (.float32 y))
  | float64 {x y : F64} (hx : x.isFinite = false) (hy : y.isFinite = false) :
      ShownAlike (some (.float64 x)) (some (.float64 y))

/-- No transform depends on a lost sign or a wrap, and rows that are shown alike have the same
values. -/
structure Tellable (lib : IcebergTransforms) (schema : SchemaDefinition) (spec : PartitionSpec)
    (rows : List Row) : Prop where
  kept : ∀ row ∈ rows, ∀ field ∈ spec.fields,
    transformOf lib schema heldValue row field = transformOf lib schema denoted row field
  apart : ∀ row ∈ rows, ∀ row' ∈ rows,
    (∀ field ∈ spec.fields, ShownAlike (transformOf lib schema denoted row field)
      (transformOf lib schema denoted row' field)) →
    ∀ field ∈ spec.fields,
      transformOf lib schema denoted row field = transformOf lib schema denoted row' field

lemma eq_float32_of_denoted {s : TeoScalar} {x : F32} (h : denoted s = some (.float32 x)) :
    s = .float32 x := by
  cases s with
  | float32 v =>
    cases h
    rfl
  | timestampMicros v tz =>
    rw [denoted] at h
    split_ifs at h <;> cases h
  | _ => cases h

lemma eq_float64_of_denoted {s : TeoScalar} {x : F64} (h : denoted s = some (.float64 x)) :
    s = .float64 x := by
  cases s with
  | float64 v =>
    cases h
    rfl
  | timestampMicros v tz =>
    rw [denoted] at h
    split_ifs at h <;> cases h
  | _ => cases h

lemma shownAlike_of_jsonScalar {s s' : TeoScalar} (h : jsonScalar s = jsonScalar s') :
    s = s' ∨ (ShownAlike (denoted s) (denoted s') ∧
      ∃ x, denoted s = some x ∧ x.isFloat = true) := by
  have hpl : ∀ v : TeoScalar, jsonScalar v = .plain v ∨
      (∃ x : F32, v = .float32 x ∧ x.isFinite = false ∧ jsonScalar v = .float32Null) ∨
      ∃ x : F64, v = .float64 x ∧ x.isFinite = false ∧ jsonScalar v = .float64Null := by
    intro v
    cases v with
    | float32 x =>
      cases hx : x.isFinite with
      | true => exact .inl (by simp [jsonScalar, hx])
      | false => exact .inr (.inl ⟨x, rfl, hx, by simp [jsonScalar, hx]⟩)
    | float64 x =>
      cases hx : x.isFinite with
      | true => exact .inl (by simp [jsonScalar, hx])
      | false => exact .inr (.inr ⟨x, rfl, hx, by simp [jsonScalar, hx]⟩)
    | _ => exact .inl rfl
  rcases hpl s with hs | ⟨x, rfl, hx, hs⟩ | ⟨x, rfl, hx, hs⟩
  · rcases hpl s' with hs' | ⟨y, rfl, hy, hs'⟩ | ⟨y, rfl, hy, hs'⟩
    · rw [hs, hs', JsonScalar.plain.injEq] at h
      exact .inl h
    · rw [hs, hs'] at h
      cases h
    · rw [hs, hs'] at h
      cases h
  · rcases hpl s' with hs' | ⟨y, rfl, hy, hs'⟩ | ⟨y, rfl, hy, hs'⟩
    · rw [hs, hs'] at h
      cases h
    · exact .inr ⟨.float32 hx hy, _, rfl, rfl⟩
    · rw [hs, hs'] at h
      cases h
  · rcases hpl s' with hs' | ⟨y, rfl, hy, hs'⟩ | ⟨y, rfl, hy, hs'⟩
    · rw [hs, hs'] at h
      cases h
    · rw [hs, hs'] at h
      cases h
    · exact .inr ⟨.float64 hx hy, _, rfl, rfl⟩

lemma jsonScalar_of_shownAlike {s s' : TeoScalar} (h : ShownAlike (denoted s) (denoted s'))
    (hs : denoted s = denoted s' → s = s') : jsonScalar s = jsonScalar s' := by
  generalize hx : denoted s = x at h
  generalize hy : denoted s' = y at h
  cases h with
  | same => rw [hs (hx.trans hy.symm)]
  | float32 hfin hfin' =>
    rw [eq_float32_of_denoted hx, eq_float32_of_denoted hy]
    simp [jsonScalar, hfin, hfin']
  | float64 hfin hfin' =>
    rw [eq_float64_of_denoted hx, eq_float64_of_denoted hy]
    simp [jsonScalar, hfin, hfin']

lemma Keyed.find? {k : KeyedRow texts} (hids : (spec.fields.map PartitionField.fieldId).Nodup)
    (h : Keyed lib texts schema spec k) {fl : PartitionField} (hfield : fl ∈ spec.fields) :
    ∃ v, partitionValue lib schema k.row fl = some (.ok v) ∧
      k.values.find? fl.fieldId = some v := by
  obtain ⟨ordered, hord, h⟩ := Fallible.bind_eq_ok_iff.mp h
  rw [Option.some.injEq, Except.ok.injEq, Prod.mk.injEq] at h
  obtain ⟨v, hv, hmem⟩ := mem_orderedValues hord hfield
  refine ⟨v, hv, ?_⟩
  rw [← h.2]
  apply OrdMap.find?_insertAll_of_mem _ _ hmem
  rwa [keys_orderedValues hord]

lemma Keyed.key_eq_iff {k k' : KeyedRow texts} (h : Keyed lib texts schema spec k)
    (h' : Keyed lib texts schema spec k') :
    k.key = k'.key ↔ ∀ fl ∈ spec.fields, ∀ s s', partitionValue lib schema k.row fl = some (.ok s) →
        partitionValue lib schema k'.row fl = some (.ok s') → jsonScalar s = jsonScalar s' := by
  obtain ⟨ordered, hord, h⟩ := Fallible.bind_eq_ok_iff.mp h
  obtain ⟨ordered', hord', h'⟩ := Fallible.bind_eq_ok_iff.mp h'
  rw [Option.some.injEq, Except.ok.injEq, Prod.mk.injEq] at h h'
  rw [← h.1, ← h'.1]
  exact keyText_eq_iff hord hord'

/-- Rows that share a group have the value of its first row. -/
lemma tellable_of_faithful {bs : List (List Row)} {keyed : List (KeyedRow texts)}
    {gs : GroupsByKey texts} (hids : (spec.fields.map PartitionField.fieldId).Nodup)
    (hmt : ∀ row ∈ bs.flatten, Matches schema row) (hr : keyed.map KeyedRow.row = bs.flatten)
    (hkee : ∀ k ∈ keyed, Keyed lib texts schema spec k) (hdes : Describes gs keyed)
    (h : Faithful lib schema spec bs (gs.map Prod.snd)) : Tellable lib schema spec bs.flatten := by
  have hkey : ∀ row ∈ bs.flatten, ∃ k ∈ keyed, k.row = row := by
    intro row hrow
    rw [← hr] at hrow
    exact List.mem_map.mp hrow
  -- The value of a group is one whose text is that of its rows' own values.
  have hg : ∀ k ∈ keyed, ∀ fl ∈ spec.fields, ∃ first ∈ keyed, first.key = k.key ∧
      ∃ v, partitionValue lib schema first.row fl = some (.ok v) ∧ ∀ k' ∈ keyed, k'.key = k.key →
          denoted v = transformOf lib schema denoted k'.row fl := by
    intro k hk fl hfld
    obtain ⟨g, hmem⟩ := hdes.exists_group hk
    obtain ⟨hfla, first, hfst, hfir, hval⟩ := hdes.of_mem hmem
    obtain ⟨v, hv, hf⟩ := (hkee first hfst).find? hids hfld
    refine ⟨first, hfst, hfir, v, hv, ?_⟩
    intro k' hk' hsa
    have hrow : k'.row ∈ g.batches.flatten := by
      rw [hfla]
      exact List.mem_map.mpr ⟨k', List.mem_filter.mpr ⟨hk', by simpa using hsa⟩, rfl⟩
    obtain ⟨found, hfnd, hden⟩ := h.transform g (List.mem_map.mpr ⟨_, hmem, rfl⟩)
      k'.row hrow fl hfld
    rw [hval, hf, Option.some.injEq] at hfnd
    rw [hfnd, hden]
  have hke : ∀ k ∈ keyed, ∀ fl ∈ spec.fields, transformOf lib schema heldValue k.row fl =
      transformOf lib schema denoted k.row fl := by
    intro k hk fl hfld
    obtain ⟨first, hfst, hfir, v, hv, hden⟩ := hg k hk fl hfld
    obtain ⟨own, hown, -⟩ := (hkee k hk).find? hids hfld
    have hmat : Matches schema k.row := hmt k.row (hr ▸ List.mem_map_of_mem hk)
    have hhd := denoted_partitionValue hmat hown
    have hj := ((hkee k hk).key_eq_iff (hkee first hfst)).mp hfir.symm fl hfld own v hown hv
    rcases shownAlike_of_jsonScalar hj with rfl | ⟨-, x, hx, hfloat⟩
    · rw [← hhd, hden k hk rfl]
    · exact transformOf_of_isFloat (hhd.symm.trans hx) hfloat
  constructor
  · intro row hrow fl hfld
    obtain ⟨k, hk, rfl⟩ := hkey row hrow
    exact hke k hk fl hfld
  · intro row hrow row' hrow' hshown fl hfld
    obtain ⟨k, hk, rfl⟩ := hkey row hrow
    obtain ⟨k', hk', rfl⟩ := hkey row' hrow'
    have hsa : k'.key = k.key := by
      rw [eq_comm, (hkee k hk).key_eq_iff (hkee k' hk')]
      intro fl hfld s s' hs hs'
      have hden : denoted s = transformOf lib schema denoted k.row fl :=
        (denoted_partitionValue (hmt k.row hrow) hs).trans (hke k hk fl hfld)
      have hden' : denoted s' = transformOf lib schema denoted k'.row fl :=
        (denoted_partitionValue (hmt k'.row hrow') hs').trans (hke k' hk' fl hfld)
      apply jsonScalar_of_shownAlike
      · rw [hden, hden']
        exact hshown fl hfld
      · exact partitionValue_eq_of_denoted hs hs'
    obtain ⟨first, -, -, v, -, hden⟩ := hg k hk fl hfld
    rw [← hden k hk rfl, hden k' hk' hsa]

lemma faithful_of_tellable {bs : List (List Row)} {keyed : List (KeyedRow texts)}
    {gs : GroupsByKey texts} (hids : (spec.fields.map PartitionField.fieldId).Nodup)
    (hmt : ∀ row ∈ bs.flatten, Matches schema row) (hr : keyed.map KeyedRow.row = bs.flatten)
    (hkey : ∀ k ∈ keyed, Keyed lib texts schema spec k) (hdes : Describes gs keyed)
    (h : Tellable lib schema spec bs.flatten) : Faithful lib schema spec bs (gs.map Prod.snd) := by
  have hf : ∀ k ∈ keyed, k.row ∈ bs.flatten := by
    intro k hk
    rw [← hr]
    exact List.mem_map_of_mem hk
  have hv : ∀ k ∈ keyed, ∀ fl ∈ spec.fields, ∃ v,
      partitionValue lib schema k.row fl = some (.ok v) ∧ k.values.find? fl.fieldId = some v ∧
        denoted v = transformOf lib schema denoted k.row fl := by
    intro k hk fl hfld
    obtain ⟨v, hv, hfi⟩ := (hkey k hk).find? hids hfld
    refine ⟨v, hv, hfi, ?_⟩
    rw [denoted_partitionValue (hmt k.row (hf k hk)) hv]
    exact h.kept k.row (hf k hk) fl hfld
  constructor
  · rw [← hr]
    exact hdes.rows_perm
  · intro g hmem row hrow fl hfld
    obtain ⟨⟨key, g⟩, hg, rfl⟩ := List.mem_map.mp hmem
    obtain ⟨hfla, first, hfst, hfir, hval⟩ := hdes.of_mem hg
    rw [hfla] at hrow
    obtain ⟨k, hk, rfl⟩ := List.mem_map.mp hrow
    obtain ⟨hk, hkeyEq⟩ := List.mem_filter.mp hk
    have hsame : first.key = k.key := by rw [hfir, of_decide_eq_true hkeyEq]
    obtain ⟨v, -, hfi, hden⟩ := hv first hfst fl hfld
    refine ⟨v, by rw [hval, hfi], ?_⟩
    rw [hden]
    apply h.apart first.row (hf first hfst) k.row (hf k hk) _ fl hfld
    intro o hot
    obtain ⟨s, hs, -, hs'⟩ := hv first hfst o hot
    obtain ⟨t, ht, -, ht'⟩ := hv k hk o hot
    have hj := ((hkey first hfst).key_eq_iff (hkey k hk)).mp hsame o hot s t hs ht
    rw [← hs', ← ht']
    rcases shownAlike_of_jsonScalar hj with rfl | ⟨hshown, -⟩
    · exact .same _
    · exact hshown

/-- Partitioning is faithful just if the partition of each row can be told. -/
theorem partitionBatches_faithful_iff (lib : IcebergTransforms) (texts : KeyTexts)
    (schema : SchemaDefinition) (spec : PartitionSpec) (batches : List (List Row))
    (groups : List PartitionedBatches)
    (hids : (spec.fields.map PartitionField.fieldId).Nodup)
    (hmatch : ∀ row ∈ batches.flatten, Matches schema row)
    (hok : partitionBatches lib texts schema spec batches = some (.ok groups)) :
    Faithful lib schema spec batches groups ↔ Tellable lib schema spec batches.flatten := by
  obtain ⟨keyed, table, hr, hkey, hdes, rfl⟩ := partitionBatches_eq_ok hok
  exact ⟨tellable_of_faithful hids hmatch hr hkey hdes,
    faithful_of_tellable hids hmatch hr hkey hdes⟩

end

/-- The library with the identity transform only. -/
def plainTransforms : IcebergTransforms where
  toIcebergScalars := plainIceberg
  resultType transform p := if transform = .identity then .ok (.ok p) else .error "unsupported"
  createTransformFunction _ := .ok fun d => .ok (some d)
  transformed transform _ x := if transform = .identity then some x else none
  transformed_identity _ _ := if_pos rfl
  isFloat_transformed transform _ x y hother h := by
    rw [if_neg hother] at h
    cases h
  transform_literal transform p p' function d x out hresult hfunction hliteral hout := by
    split_ifs at hresult with hidentity
    cases hresult
    cases hfunction
    cases hout
    rw [Option.bind_some, hliteral, if_pos hidentity]

/-- Keys that are their own text. -/
def plainTexts : KeyTexts where
  Text := List (Int × JsonScalar)
  decEq := inferInstance
  serialize := id
  serialize_injective := Function.injective_id

def amountSchema : SchemaDefinition := ⟨0, [⟨1, "amount", .decimal128 2 1, true, none⟩], []⟩

def amountSpec : PartitionSpec := ⟨0, [⟨1, 1000, "amount", .identity⟩]⟩

def amount (tenths : Int) : TeoScalar := .decimal128 (BitVec.ofInt 128 tenths) 2 1

def amountRows : List Row := [[amount (-15)], [.null]]

lemma mem_amountRows {row : Row} (h : row ∈ [amountRows].flatten) :
    row = [amount (-15)] ∨ row = [.null] := by
  simpa [amountRows] using h

lemma matches_amount : ∀ row ∈ [amountRows].flatten, Matches amountSchema row := by
  intro row hrow columnIdx column v hcol hv
  cases columnIdx with
  | zero =>
    cases hcol
    rcases mem_amountRows hrow with rfl | rfl <;> cases hv
    · exact .inr (hasType_decimal128 ⟨by decide, by decide, by decide⟩)
    · exact .inl rfl
  | succ columnIdx => cases hcol

theorem partition_minus_one_and_a_half :
    ∃ groups, partitionBatches plainTransforms plainTexts amountSchema amountSpec [amountRows] =
        some (.ok groups) ∧ groups.length = 2 ∧
      Faithful plainTransforms amountSchema amountSpec [amountRows] groups := by
  have hs : ¬ LosesSign (BitVec.ofInt 128 (-15)) 1 := by decide
  have hk : heldValue (amount (-15)) = denoted (amount (-15)) :=
    (@heldValue_eq_denoted_iff plainIceberg (amount (-15)) trivial).mpr hs
  refine ⟨[⟨OrdMap.empty.insertAll [(1000, amount (-15))], [[[amount (-15)]]]⟩,
    ⟨OrdMap.empty.insertAll [(1000, .null)], [[[.null]]]⟩], by rfl, rfl, ?_⟩
  apply (partitionBatches_faithful_iff plainTransforms plainTexts amountSchema amountSpec
    [amountRows] _ (by decide) matches_amount rfl).mpr
  constructor
  · intro row hrow fl hfld
    rw [amountSpec, List.mem_singleton] at hfld
    subst hfld
    rcases mem_amountRows hrow with rfl | rfl
    · exact congrArg (transformedAs plainTransforms .identity (.decimal128 2 1)) hk
    · rfl
  · intro row hrow row' hrow' halike fl _
    rcases mem_amountRows hrow with rfl | rfl <;> rcases mem_amountRows hrow' with rfl | rfl
    · rfl
    · cases halike _ List.mem_cons_self
    · cases halike _ List.mem_cons_self
    · rfl

/-- The group of the row minus one half has the value one half. -/
theorem partition_minus_half :
    ∃ group, partitionBatches plainTransforms plainTexts amountSchema amountSpec
        [[[amount (-5)]]] = some (.ok [group]) ∧
      group.batches = [[[amount (-5)]]] ∧
      group.partitionValues.find? 1000 = some (amount 5) ∧
      ¬ Faithful plainTransforms amountSchema amountSpec [[[amount (-5)]]] [group] := by
  refine ⟨⟨OrdMap.empty.insertAll [(1000, amount 5)], [[[amount (-5)]]]⟩, by rfl, rfl, by rfl, ?_⟩
  intro hfai
  obtain ⟨v, hf, hden⟩ := hfai.transform _ List.mem_cons_self [amount (-5)]
    (by simp) ⟨1, 1000, "amount", .identity⟩ (by simp [amountSpec])
  have hv : some (amount 5) = some v := hf
  cases hv
  have hs : denoted (amount 5) = denoted (amount (-5)) := by
    rw [hden]
    exact transformedAs_identity plainTransforms (.decimal128 2 1) (denoted (amount (-5)))
  have heq : amount 5 = amount (-5) := decimal128_eq_of_denoted rfl hs
  exact absurd heq (by decide)

end TeoDB.Ingest.Flush

import TeoDB.Catalog.PartitionPath
import TeoDB.Distributed.Sweeper
import TeoDB.Storage.ParquetWriter

/-!
# The keys of data files

The sweeper compares the keys that a listing yields with the keys of the recorded files and deletes
by the listed keys, so it is right about a file only if its key means one object.

A key does so exactly if it is its own path in the object store. Of a flushed file that is a matter
of the table's key and of the names and values of the partition: each has only letters, digits,
blanks and `-_.`.
-/

namespace TeoDB.Distributed

open TeoDB.Core TeoDB.Core.PlainText Catalog Storage Storage.Wal

def trimEndMatches (text : List Char) : List Char := (text.reverse.dropWhile (· = '/')).reverse

/-- The first file of a flush, or of one partition of it. -/
def flushFileLocation (table : ObjectLocation) (writerId : WriterId) (commitId : CommitId)
    (partition : Option (List Char × Nat)) : ObjectLocation :=
  let fileName :=
    match partition with
    | some (_, idx) => uuidChars commitId.uuid ++ "-p".toList ++ paddedIndex idx ++
        "-f0000.parquet".toList
    | none => uuidChars commitId.uuid ++ "-f0000.parquet".toList
  let dataDir :=
    match partition with
    | some (path, _) => "data/".toList ++ path ++ '/' :: uuidChars writerId.uuid
    | none => "data/".toList ++ uuidChars writerId.uuid
  { table with
    key := String.ofList (trimEndMatches table.key.toList ++ '/' :: (dataDir ++ '/' :: fileName)) }

def compactedFileLocation (table : ObjectLocation) (file : Uuid) : ObjectLocation :=
  { table with
    key := String.ofList
      (table.key.toList ++ "/data/".toList ++ uuidChars file ++ ".parquet".toList) }

/-- What a data file is written by. -/
inductive FileOrigin where
  | flushed (schema : SchemaDefinition) (spec : PartitionSpec) (values : Int → Option TeoScalar)
      (writerId : WriterId) (commitId : CommitId) (idx : Nat)
  | compacted (file : Uuid)

/-- A data file of a table. A stream that does not fit one file is written to numbered ones. -/
structure WrittenFile where
  table : ObjectLocation
  origin : FileOrigin
  fileIndex : Option Nat

section

variable (toHumanString : PartitionTransform → TeoDataType → TeoScalar → TeoDBResult String)

/-- The location a stream is written to. -/
def FileOrigin.target (table : ObjectLocation) : FileOrigin → TeoDBResult ObjectLocation
  | .flushed schema spec values writerId commitId idx =>
    if spec.fields.isEmpty then .ok (flushFileLocation table writerId commitId none)
    else (icebergPartitionPath toHumanString schema spec values).map fun path =>
      flushFileLocation table writerId commitId (some (path, idx))
  | .compacted file => .ok (compactedFileLocation table file)

def WrittenFile.location (file : WrittenFile) : TeoDBResult ObjectLocation :=
  (file.origin.target toHumanString file.table).map fun target =>
    match file.fileIndex with
    | none => target
    | some index => fileLocation target index

end

/-- A name that every object store keeps as it is. -/
structure PlainName (name : List Char) : Prop where
  long : 2 < name.length
  plain : ∀ c ∈ name, isPlain c = true

lemma PlainName.slash_notMem {name : List Char} (h : PlainName name) : '/' ∉ name :=
  fun hmem => absurd (h.plain _ hmem) (by decide)

lemma PlainName.clean {name : List Char} (h : PlainName name) (rules : PathRules) :
    rules.Clean name := by
  rw [PathRules.clean_of_notMem h.slash_notMem]
  have hl := h.long
  refine ⟨?_, ?_, ?_, fun c hc => rules.plain c (h.plain c hc)⟩
  all_goals
    rintro rfl
    exact absurd hl (by decide)

lemma PlainName.append {a b : List Char} (h : PlainName a) (hb : ∀ c ∈ b, isPlain c = true) :
    PlainName (a ++ b) where
  long := by
    have := h.long
    rw [List.length_append]
    omega
  plain c hc := (List.mem_append.mp hc).elim (h.plain c) (hb c)

lemma isPlain_of_isHexDigit {c : Char} (h : isHexDigit c = true) : isPlain c = true := by
  simp only [isHexDigit, Bool.or_eq_true, Bool.and_eq_true, decide_eq_true_eq] at h
  simp only [isPlain, Char.isAlphanum, Char.isAlpha, Char.isLower, Bool.or_eq_true,
    Bool.and_eq_true, decide_eq_true_eq]
  obtain h | ⟨hlow, hh⟩ := h
  · exact Or.inl (Or.inr h)
  · exact Or.inl (Or.inl (Or.inr ⟨hlow, le_trans hh (by decide)⟩))

lemma plainName_uuidChars (u : Uuid) : PlainName (uuidChars u) where
  long := by
    rw [length_uuidChars]
    decide
  plain c hc := by
    by_cases hhyp : c = '-'
    · subst hhyp
      decide
    · have hmem : c ∈ hexDigits u.toNat 32 := by
        have hdg := filter_uuidChars u
        rw [← hdg]
        exact List.mem_filter.mpr ⟨hc, decide_eq_true hhyp⟩
      exact isPlain_of_isHexDigit (isHexDigit_of_mem hmem)

lemma isDigit_of_mem_paddedIndex {i : Nat} {c : Char} (h : c ∈ paddedIndex i) :
    c.isDigit = true := by
  rcases List.mem_append.mp h with h | h
  · rw [List.eq_of_mem_replicate h]
    decide
  · exact Nat.isDigit_of_mem_toDigits (by decide) (by decide) h

lemma isPlain_of_mem_paddedIndex {i : Nat} {c : Char} (h : c ∈ paddedIndex i) :
    isPlain c = true :=
  isPlain_of_isHexDigit (by simp [isHexDigit, isDigit_of_mem_paddedIndex h])

/-- A text that ends a key without a slash ends its last name. -/
theorem append_eq_append_slash {dir name stem lit : List Char} (hslash : '/' ∉ lit)
    (h : dir ++ '/' :: name = stem ++ lit) :
    ∃ front, stem = dir ++ '/' :: front ∧ name = front ++ lit := by
  have hsp : (dir ++ ['/']) ++ name = stem ++ lit := by simpa using h
  rcases List.append_eq_append_iff.mp hsp with ⟨front, hs, hn⟩ | ⟨back, hdir, hlit⟩
  · exact ⟨front, by simpa using hs, hn⟩
  · rcases List.eq_nil_or_concat back with rfl | ⟨front, last, rfl⟩
    · refine ⟨[], ?_, by simpa using hlit.symm⟩
      simpa using hdir.symm
    · rw [List.concat_eq_append, ← List.append_assoc] at hdir
      obtain ⟨_, hl⟩ := List.append_inj' hdir rfl
      cases hl
      exact absurd (by simp [hlit]) hslash

lemma isPlain_append {a b : List Char} (ha : ∀ c ∈ a, isPlain c = true)
    (hb : ∀ c ∈ b, isPlain c = true) : ∀ c ∈ a ++ b, isPlain c = true :=
  fun c hc => (List.mem_append.mp hc).elim (ha c) (hb c)

lemma isPlain_parquet : ∀ c ∈ ".parquet".toList, isPlain c = true :=
  List.all_eq_true.mp (by decide)

lemma plainName_numbered {front : List Char} (i : Nat) (hfront : ∀ c ∈ front, isPlain c = true) :
    PlainName (front ++ paddedIndex i ++ ".parquet".toList) where
  long := by
    simp
    omega
  plain :=
    isPlain_append (isPlain_append hfront fun _ => isPlain_of_mem_paddedIndex) isPlain_parquet

/-- A numbered file lies beside the location it is derived from, under a plain name. -/
theorem fileLocation_key {base : ObjectLocation} {dir name : List Char} (i : Nat)
    (hkey : base.key.toList = dir ++ '/' :: name) (hn : PlainName name) :
    ∃ name', PlainName name' ∧ (fileLocation base i).key.toList = dir ++ '/' :: name' := by
  have hnum (mark : List Char) (hm : ∀ c ∈ mark, isPlain c = true)
      {lit stem : List Char} (hslash : '/' ∉ lit)
      (hs : stripSuffix? lit base.key.toList = some stem) :
      ∃ name', PlainName name' ∧
        stem ++ mark ++ paddedIndex i ++ ".parquet".toList = dir ++ '/' :: name' := by
    have heq := eq_of_stripSuffix? hs
    rw [hkey] at heq
    obtain ⟨front, rfl, rfl⟩ := append_eq_append_slash hslash heq
    have hfront : ∀ c ∈ front, isPlain c = true :=
      fun c hc => hn.plain c (List.mem_append_left _ hc)
    exact ⟨_, plainName_numbered i (isPlain_append hfront hm), by simp⟩
  unfold fileLocation
  cases hfl : stripSuffix? "-f0000.parquet".toList base.key.toList with
  | some stem =>
    simpa using hnum "-f".toList (List.all_eq_true.mp (by decide)) (by decide) hfl
  | none =>
    cases hpl : stripSuffix? ".parquet".toList base.key.toList with
    | some stem =>
      simpa using hnum "-".toList (List.all_eq_true.mp (by decide)) (by decide) hpl
    | none =>
      have hix : ∀ c ∈ '-' :: paddedIndex i, isPlain c = true :=
        List.forall_mem_cons.mpr ⟨by decide, fun _ => isPlain_of_mem_paddedIndex⟩
      exact ⟨_, hn.append hix, by simp [hkey]⟩

/-- The table's key as an origin uses it. -/
def FileOrigin.root (table : ObjectLocation) : FileOrigin → List Char
  | .flushed .. => trimEndMatches table.key.toList
  | .compacted _ => table.key.toList

section

variable (toHumanString : PartitionTransform → TeoDataType → TeoScalar → TeoDBResult String)

/-- The names and the values of the partition are free of characters that are escaped. -/
def FileOrigin.PlainPartition : FileOrigin → Prop
  | .flushed schema spec values _ _ _ =>
    ∀ components, partitionComponents toHumanString schema spec values = .ok components →
      ∀ component ∈ components, UrlPlain component.1 ∧ UrlPlain component.2
  | .compacted _ => True

/-- A key as the directories above a file and the name of the file. -/
structure KeyShape (table : ObjectLocation) (origin : FileOrigin) (location : ObjectLocation)
    (dirs : List (List Char)) (name : List Char) : Prop where
  scheme : location.scheme = table.scheme
  bucket : location.bucket = table.bucket
  plain : PlainName name
  key : location.key.toList =
    ['/'].intercalate (origin.root table :: "data".toList :: dirs) ++ '/' :: name
  clean : ∀ rules : PathRules, (∀ dir ∈ dirs, rules.Clean dir) ↔ origin.PlainPartition toHumanString

variable {toHumanString}

lemma partitionComponents_length {sch : SchemaDefinition} {spec : PartitionSpec}
    {values : Int → Option TeoScalar} {components : List (String × String)}
    (h : partitionComponents toHumanString sch spec values = .ok components) :
    components.length = spec.fields.length := by
  unfold partitionComponents at h
  generalize spec.fields = fields at h ⊢
  induction fields generalizing components with
  | nil =>
    cases h
    rfl
  | cons fl rest ih =>
    rw [List.mapM_cons] at h
    cases hfld : partitionComponent toHumanString sch values fl with
    | error e => simp [hfld, bind, Except.bind] at h
    | ok component =>
      cases hr : rest.mapM (partitionComponent toHumanString sch values) with
      | error e => simp [hfld, hr, bind, Except.bind] at h
      | ok others =>
        simp only [hfld, hr, bind, Except.bind, pure, Except.pure, Except.ok.injEq] at h
        rw [← h, List.length_cons, List.length_cons, ih hr]

lemma intercalate_append_singleton {dirs : List (List Char)} (h : dirs ≠ []) (last : List Char) :
    ['/'].intercalate (dirs ++ [last]) = ['/'].intercalate dirs ++ '/' :: last := by
  induction dirs with
  | nil => exact absurd rfl h
  | cons dir rest ih =>
    cases rest with
    | nil => simp [List.intercalate_cons_cons]
    | cons second rest =>
      have hr := ih (List.cons_ne_nil _ _)
      simp only [List.cons_append, List.intercalate_cons_cons] at hr ⊢
      simp [hr]

lemma isPlain_first : ∀ c ∈ "-f0000.parquet".toList, isPlain c = true :=
  List.all_eq_true.mp (by decide)

lemma target_shape {tbl tg : ObjectLocation} {origin : FileOrigin}
    (h : origin.target toHumanString tbl = .ok tg) :
    ∃ dirs name, KeyShape toHumanString tbl origin tg dirs name := by
  cases origin with
  | compacted file =>
    cases h
    refine ⟨[], uuidChars file ++ ".parquet".toList, rfl, rfl,
      (plainName_uuidChars file).append isPlain_parquet, ?_, ?_⟩
    · simp [compactedFileLocation, FileOrigin.root, List.intercalate_cons_cons]
    · simp [FileOrigin.PlainPartition]
  | flushed sch spec values writerId commitId idx =>
    simp only [FileOrigin.target] at h
    split_ifs at h with hflds
    · cases h
      refine ⟨[uuidChars writerId.uuid], uuidChars commitId.uuid ++ "-f0000.parquet".toList, rfl,
        rfl, (plainName_uuidChars _).append isPlain_first, ?_, ?_⟩
      · simp [flushFileLocation, FileOrigin.root, List.intercalate_cons_cons]
      · intro rules
        have hcl := (plainName_uuidChars writerId.uuid).clean rules
        have hn : partitionComponents toHumanString sch spec values = .ok [] := by
          rw [partitionComponents, List.isEmpty_iff.mp hflds]
          rfl
        simp [FileOrigin.PlainPartition, hn, hcl]
    · cases hcom : partitionComponents toHumanString sch spec values with
      | error e => simp [icebergPartitionPath, hcom, Except.map] at h
      | ok components =>
        have hne : components.map componentDir ≠ [] := by
          intro hnil
          have hlen := partitionComponents_length hcom
          rw [List.map_eq_nil_iff.mp hnil] at hlen
          exact hflds (List.isEmpty_iff.mpr (List.length_eq_zero_iff.mp hlen.symm))
        simp only [icebergPartitionPath, hcom, Except.map, Except.ok.injEq] at h
        subst h
        refine ⟨components.map componentDir ++ [uuidChars writerId.uuid],
          uuidChars commitId.uuid ++ "-p".toList ++ paddedIndex idx ++ "-f0000.parquet".toList,
          rfl, rfl, ?_, ?_, ?_⟩
        · apply PlainName.append _ isPlain_first
          apply PlainName.append _ fun _ => isPlain_of_mem_paddedIndex
          exact (plainName_uuidChars _).append (List.all_eq_true.mp (by decide))
        · have hd := intercalate_append_singleton hne (uuidChars writerId.uuid)
          obtain ⟨dir, rest, hc⟩ := List.exists_cons_of_ne_nil hne
          simp only [FileOrigin.root, List.intercalate_cons_cons, hc, List.cons_append]
          rw [hc, List.cons_append] at hd
          simp [flushFileLocation, hd]
        · intro rules
          have hcl := (plainName_uuidChars writerId.uuid).clean rules
          simp only [FileOrigin.PlainPartition, hcom, List.forall_mem_append,
            List.forall_mem_map, List.forall_mem_singleton, hcl, and_true,
            clean_componentDir_iff, Except.ok.injEq, forall_eq']

lemma location_shape {file : WrittenFile} {location : ObjectLocation}
    (h : file.location toHumanString = .ok location) :
    ∃ dirs name, KeyShape toHumanString file.table file.origin location dirs name := by
  unfold WrittenFile.location at h
  cases htg : file.origin.target toHumanString file.table with
  | error e => simp [htg, Except.map] at h
  | ok tg =>
    obtain ⟨dirs, name, hsh⟩ := target_shape htg
    simp only [htg, Except.map, Except.ok.injEq] at h
    subst h
    cases file.fileIndex with
    | none => exact ⟨dirs, name, hsh⟩
    | some i =>
      obtain ⟨name', hpl, hkey⟩ := fileLocation_key i hsh.key hsh.plain
      exact ⟨dirs, name', hsh.scheme, hsh.bucket, hpl, hkey, hsh.clean⟩

end

/-- A key that means one object, which the sweeper spares exactly if it is recorded or young. -/
structure KeepsObject (rules : PathRules) (table location : ObjectLocation) : Prop
    extends rules.OneObject location.key.toList where
  recognised : BucketOf location.scheme location.bucket → ∀ bucket bytes listed,
    rules.ListedAs bucket location.key.toList bytes listed →
      ∀ minAge dataPrefix keys now modified, referencedKey location.toUri ∈ keys →
        isCandidate minAge dataPrefix keys now ⟨String.ofList listed, modified⟩ = false
  swept : ∀ bucket bytes listed, rules.ListedAs bucket location.key.toList bytes listed →
    ∀ minAge keys now modified, location.key ∉ keys → minAge ≤ ageOf now modified →
      isCandidate minAge (dataPrefixOf table.key) keys now ⟨String.ofList listed, modified⟩ = true

/-- The table's key and the partition of a file have no character that is escaped. -/
def WrittenFile.Plain (rules : PathRules)
    (toHumanString : PartitionTransform → TeoDataType → TeoScalar → TeoDBResult String)
    (file : WrittenFile) : Prop :=
  rules.Clean (file.origin.root file.table) ∧ file.origin.PlainPartition toHumanString

section

variable {rules : PathRules}
  {toHumanString : PartitionTransform → TeoDataType → TeoScalar → TeoDBResult String}
  {file : WrittenFile} {location : ObjectLocation} {dirs : List (List Char)} {name : List Char}

lemma KeyShape.clean_iff (h : KeyShape toHumanString file.table file.origin location dirs name) :
    rules.Clean location.key.toList ↔ file.Plain rules toHumanString := by
  have hd : rules.Clean "data".toList :=
    PlainName.clean ⟨by decide, List.all_eq_true.mp (by decide)⟩ rules
  rw [h.key, PathRules.clean_append, clean_intercalate_iff rules (List.cons_ne_nil _ _),
    List.forall_mem_cons, List.forall_mem_cons, h.clean]
  simp only [WrittenFile.Plain, hd, h.plain.clean rules, true_and, and_true]

lemma KeyShape.parts_ne_nil
    (h : KeyShape toHumanString file.table file.origin location dirs name) :
    parts location.key.toList ≠ [] := by
  have hn : name ∈ parts location.key.toList := by
    have hne : name ≠ [] := by
      rintro rfl
      exact absurd h.plain.long (by decide)
    rw [h.key, parts, segments_append, segments_of_notMem h.plain.slash_notMem]
    simp [hne]
  exact List.ne_nil_of_mem hn

/-- A clean key is in normal form, so its URI is read back. -/
theorem referencedKey_toUri (hcl : rules.Clean location.key.toList)
    (hbk : BucketOf location.scheme location.bucket) :
    referencedKey location.toUri = location.key := by
  have hnor : location.Normal := by
    refine ⟨hbk, segments location.key.toList, ?_, ?_⟩
    · intro seg hseg
      obtain ⟨hne, _, hd, _⟩ := hcl seg hseg
      exact ⟨hne, notMem_of_mem_splitOn hseg, hd⟩
    · rw [segments, List.intercalate_splitOn, String.ofList_toList]
  rw [referencedKey, ObjectLocation.parse_toUri hnor]

lemma trimEndMatches_eq_self {text : List Char} (h : rules.Clean text) :
    trimEndMatches text = text := by
  rcases List.eq_nil_or_concat text with rfl | ⟨front, last, rfl⟩
  · rfl
  · have hl : last ≠ '/' := by
      rintro rfl
      have hsegs := segments_append front []
      rw [List.concat_eq_append] at h
      exact absurd rfl (h [] (by rw [hsegs]; simp [segments])).1
    simp [trimEndMatches, hl]

/-- The sweeper's prefix of a table's data begins the keys of its files. -/
theorem KeyShape.dataPrefix (h : KeyShape toHumanString file.table file.origin location dirs name)
    (hpl : file.Plain rules toHumanString) :
    startsWith location.key (dataPrefixOf file.table.key) = true := by
  have hr : file.origin.root file.table = trimEndMatches file.table.key.toList := by
    have hcl := hpl.1
    cases hor : file.origin with
    | flushed schema spec values writerId commitId idx => rfl
    | compacted uuid =>
      rw [hor] at hcl
      exact (trimEndMatches_eq_self hcl).symm
  have hne : file.table.key ≠ "" := by
    intro hem
    have hcl := hpl.1
    rw [hr, hem] at hcl
    exact absurd rfl (hcl [] (by decide)).1
  have hbl : (dataPrefixOf file.table.key).toList =
      trimEndMatches file.table.key.toList ++ "/data/".toList := by
    simp [dataPrefixOf, hne, trimEndSlashes, trimEndMatches]
  rw [startsWith, List.isPrefixOf_iff_prefix, hbl, h.key, hr, List.intercalate_cons_cons]
  cases dirs with
  | nil => exact ⟨name, by simp⟩
  | cons dir rest =>
    refine ⟨['/'].intercalate (dir :: rest) ++ '/' :: name, ?_⟩
    simp [List.intercalate_cons_cons]

/-- The key of a written file means one object exactly if the table's key and the partition have no
character that is escaped. -/
theorem keepsObject_iff_plain (h : file.location toHumanString = .ok location) :
    KeepsObject rules file.table location ↔ file.Plain rules toHumanString := by
  obtain ⟨dirs, name, hsh⟩ := location_shape h
  have hone : rules.OneObject location.key.toList ↔ rules.Clean location.key.toList :=
    PathRules.oneObject_iff_clean hsh.parts_ne_nil
  constructor
  · exact fun hkeeps => hsh.clean_iff.mp (hone.mp hkeeps.toOneObject)
  · intro hpl
    have hcl := hsh.clean_iff.mpr hpl
    have hob := hone.mpr hcl
    refine ⟨hob, ?_, ?_⟩
    · intro hbk bk bs ls hls minAge dataPrefix keys now modified hk
      rw [referencedKey_toUri hcl hbk] at hk
      rw [hob.listed bk bs ls hls, String.ofList_toList]
      simp [isCandidate, hk]
    · intro bk bs ls hls minAge keys now modified hk hage
      rw [hob.listed bk bs ls hls, String.ofList_toList]
      simp [isCandidate, hk, hsh.dataPrefix hpl, hage]

end

namespace RegionPartition

def schema : SchemaDefinition := ⟨0, [⟨1, "region", .utf8, false, none⟩], []⟩

def spec : PartitionSpec := ⟨0, [⟨1, 1000, "region", .identity⟩]⟩

/-- Texts are their own human form. -/
def toHumanString (_ : PartitionTransform) (_ : TeoDataType) : TeoScalar → TeoDBResult String
  | .utf8 text => .ok text
  | _ => .ok "null"

/-- The first file of a flush of one region. -/
def file (region : String) : WrittenFile where
  table := ⟨.s3, some "lake", "sales/events"⟩
  origin := .flushed schema spec (fun id => if id = 1000 then some (.utf8 region) else none)
    ⟨Uuid.ofNat 1⟩ ⟨Uuid.ofNat 2⟩ 0
  fileIndex := none

def uuids : String := "/00000000-0000-0000-0000-000000000001/00000000-0000-0000-0000-000000000002"

/-- Where the file of a region lies whose directory is given. -/
def location (dir : String) : ObjectLocation :=
  ⟨.s3, some "lake", "sales/events/data/" ++ dir ++ uuids ++ "-p0000-f0000.parquet"⟩

end RegionPartition

open RegionPartition in
theorem keepsObject_plain_region :
    (file "eu west").location toHumanString = .ok (location "region=eu+west") ∧
      KeepsObject objectStoreRules (file "eu west").table (location "region=eu+west") := by
  have hloc : (file "eu west").location toHumanString = .ok (location "region=eu+west") := by
    decide +kernel
  refine ⟨hloc, (keepsObject_iff_plain hloc).mpr ⟨by decide +kernel, ?_⟩⟩
  rintro components ⟨⟩ component hcom
  rw [List.mem_singleton.mp hcom]
  exact ⟨by decide +kernel, by decide +kernel⟩

open RegionPartition in
/-- The escape of a slash is escaped once more, so the object is listed under a key that is not
recorded and does not reach it. -/
theorem escaped_region_is_two_keys : ∃ recorded listed : ObjectLocation,
      (file "eu/west").location toHumanString = .ok recorded ∧
        recorded = location "region=eu%2Fwest" ∧ listed = location "region=eu%252Fwest" ∧
        objectStoreRules.list "sales/events/data/".toList
          (objectStoreRules.put recorded.key.toList [80, 65, 82, 49] []) = [listed.key.toList] ∧
        objectStoreRules.get listed.key.toList
          (objectStoreRules.put recorded.key.toList [80, 65, 82, 49] []) = none ∧
        objectStoreRules.get recorded.key.toList (objectStoreRules.delete listed.key.toList
          (objectStoreRules.put recorded.key.toList [80, 65, 82, 49] [])) = some [80, 65, 82, 49] ∧
        isCandidate 0 "sales/events/data/" [referencedKey recorded.toUri] 0 ⟨listed.key, 0⟩ = true ∧
        ¬ KeepsObject objectStoreRules (file "eu/west").table recorded := by
  refine ⟨_, _, by decide +kernel, rfl, rfl, by decide +kernel, by decide +kernel,
    by decide +kernel, by decide +kernel, ?_⟩
  intro h
  have hcl := (PathRules.oneObject_iff_clean (by decide +kernel)).mp h.toOneObject
  exact absurd hcl (by decide +kernel)

end TeoDB.Distributed

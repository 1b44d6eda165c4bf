import TeoDB.Query.Ddl
import TeoDB.Storage.KeyParts

/-!
# Where created tables are put

A table that is created over REST, by a SQL statement or by an ingest request gets the
location `{warehouse}/{namespace}/{name}`. If that URI cannot be read, the table goes to
a fixed bucket under the same names. Only the REST endpoint validates the names. The
others take any text, and a slash in a name moves the border between the namespace and
the table.
-/

namespace TeoDB.Api

open TeoDB.Core Query Storage

/-- The location of a new table. -/
def tableLocation (fallbackBucket warehouse : String) (ident : TableIdent) : ObjectLocation :=
  match ObjectLocation.parse s!"{warehouse}/{ident.nameSpace}/{ident.name}" with
  | .ok location => location
  | .error _ => ⟨.s3, some fallbackBucket, s!"{ident.nameSpace}/{ident.name}"⟩

/-- The location that `CREATE TABLE` gives. -/
def DdlExecutor.tableLocation : String → TableIdent → ObjectLocation :=
  Api.tableLocation "warehouse"

/-- The location that the REST endpoint gives. -/
def DdlService.tableLocation : String → TableIdent → ObjectLocation :=
  Api.tableLocation "warehouse"

/-- The location that schema-on-write gives. -/
def IngestService.tableLocation : String → TableIdent → ObjectLocation :=
  Api.tableLocation "teodb"

/-- The ways to create a table. -/
inductive CreationPath where
  | rest
  | sql
  | ingest
deriving DecidableEq

/-- The check of the names that the REST endpoint makes first. -/
def validateNames (ident : TableIdent) : TeoDBResult Unit := do
  validateIdentifier "namespace" ident.nameSpace
  validateIdentifier "table" ident.name

/-- The location under which a creation path asks the catalog for a table. -/
def createLocation (warehouse : String) (ident : TableIdent) :
    CreationPath → TeoDBResult ObjectLocation
  | .rest => (validateNames ident).map fun _ => DdlService.tableLocation warehouse ident
  | .sql => .ok (DdlExecutor.tableLocation warehouse ident)
  | .ingest => .ok (IngestService.tableLocation warehouse ident)

/-- The key of one location is a path prefix of the key of another, or equal to it. -/
def PathPrefix (a b : ObjectLocation) : Prop := parts a.key.toList <+: parts b.key.toList

/-- An object that a sweep or a purge of a location lists. -/
def Lists (location : ObjectLocation) (object : List Char) : Prop :=
  ∃ below, below ≠ [] ∧ parts object = parts location.key.toList ++ below

/-- Two locations of which none is inside the other, and no object is listed twice. -/
structure Apart (a b : ObjectLocation) : Prop where
  left : ¬ PathPrefix a b
  right : ¬ PathPrefix b a
  lists : ∀ object, Lists a object → ¬ Lists b object

lemma apart_iff {a b : ObjectLocation} : Apart a b ↔ ¬ PathPrefix a b ∧ ¬ PathPrefix b a := by
  constructor
  · exact fun h => ⟨h.left, h.right⟩
  · rintro ⟨hl, hrig⟩
    refine ⟨hl, hrig, ?_⟩
    rintro obj ⟨below, _, ha⟩ ⟨below', _, hb⟩
    have hpre : parts a.key.toList <+: parts obj := ⟨below, ha.symm⟩
    have hpre' : parts b.key.toList <+: parts obj := ⟨below', hb.symm⟩
    rcases List.prefix_or_prefix_of_prefix hpre hpre' with h | h
    · exact hl h
    · exact hrig h

/-- The parts of the key of a new table. -/
def place (warehouse : String) (ident : TableIdent) : List (List Char) :=
  let own := segments ident.nameSpace.toList ++ segments ident.name.toList
  (keyParts (segments warehouse.toList ++ own)).getD (own.filter (· ≠ []))

/-- One path is inside the other. -/
def Nested (a b : List (List Char)) : Prop := a <+: b ∨ b <+: a

lemma parts_tableLocation (fallbackBucket warehouse : String) (ident : TableIdent) :
    parts (tableLocation fallbackBucket warehouse ident).key.toList = place warehouse ident := by
  have hparse := parse_parts s!"{warehouse}/{ident.nameSpace}/{ident.name}"
  have huri : (s!"{warehouse}/{ident.nameSpace}/{ident.name}").toList =
      warehouse.toList ++ '/' :: (ident.nameSpace.toList ++ '/' :: ident.name.toList) := by
    simp [toString]
  rw [huri, segments_append, segments_append] at hparse
  unfold tableLocation place
  cases h : ObjectLocation.parse s!"{warehouse}/{ident.nameSpace}/{ident.name}" with
  | ok location =>
    rw [h] at hparse
    simp only [← hparse]
    rfl
  | error error =>
    rw [h] at hparse
    have hkey : (s!"{ident.nameSpace}/{ident.name}").toList =
        ident.nameSpace.toList ++ '/' :: ident.name.toList := by
      simp [toString]
    simp only [← hparse, hkey, parts, segments_append]
    rfl

/-- Whichever way a table is created, its names and the warehouse decide its place. -/
theorem parts_createLocation {wh : String} {ident : TableIdent} {path : CreationPath}
    {loc : ObjectLocation} (h : createLocation wh ident path = .ok loc) :
    parts loc.key.toList = place wh ident := by
  cases path with
  | rest =>
    cases hnms : validateNames ident with
    | error e => simp [createLocation, hnms, Except.map] at h
    | ok _ =>
      simp only [createLocation, hnms, Except.map, Except.ok.injEq] at h
      rw [← h]
      exact parts_tableLocation _ _ _
  | sql =>
    cases h
    exact parts_tableLocation _ _ _
  | ingest =>
    cases h
    exact parts_tableLocation _ _ _

/-- A text that is one part of a path. -/
def Plain (text : List Char) : Prop := text ≠ [] ∧ '/' ∉ text ∧ text ≠ "..".toList

lemma plain_of_validateIdentifier {kind v : String}
    (h : validateIdentifier kind v = .ok ()) : Plain v.toList := by
  obtain ⟨hne, hcha⟩ := chars_of_validateIdentifier h
  refine ⟨hne, fun hslash => ?_, fun hpar => ?_⟩
  · exact absurd (hcha '/' hslash) (by decide)
  · exact absurd (hcha '.' (by rw [hpar]; decide)) (by decide)

/-- A URI that begins a bucket and does not name it. -/
def NoBucket (warehouse : String) : Prop :=
  ∃ scheme, scheme ≠ .local ∧ segments warehouse.toList = [schemeName scheme, []]

lemma visibleParts_append_plain {x y : List Char} (hx : Plain x) (hy : Plain y)
    (segs : List (List Char)) :
    visibleParts (segs ++ [x, y]) = (visibleParts segs).map (· ++ [x, y]) := by
  have hxp : ['.', '.'] ≠ x := fun h => hx.2.2 h.symm
  have hyp : ['.', '.'] ≠ y := fun h => hy.2.2 h.symm
  by_cases hparent : "..".toList ∈ segs
  · simp_all [visibleParts]
  · simp_all [visibleParts, hx.1, hy.1]

/-- Two plain names are read below one root, whatever they are. -/
theorem keyParts_plain {wh : String} (h : ¬ NoBucket wh) : ∃ root, ∀ x y, Plain x → Plain y →
      (keyParts (segments wh.toList ++ [x, y])).getD [x, y] = root ++ [x, y] := by
  -- The roots that a readable and an unreadable warehouse have.
  have hr (segs : List (List Char)) : ∃ root, ∀ x y, Plain x → Plain y →
      (visibleParts (segs ++ [x, y])).getD [x, y] = root ++ [x, y] := by
    refine ⟨(visibleParts segs).getD [], fun x y hx hy => ?_⟩
    rw [visibleParts_append_plain hx hy]
    cases visibleParts segs <;> rfl
  match hs : segments wh.toList with
  | [] => exact absurd hs (segments_ne_nil _)
  | [name] =>
    refine ⟨[], fun x y hx hy => ?_⟩
    obtain ⟨c, tail, rfl⟩ := List.exists_cons_of_ne_nil hx.1
    rfl
  | name :: (c :: tail) :: rest =>
    refine ⟨[], fun x y hx hy => ?_⟩
    cases rest <;> rfl
  | [name, []] =>
    cases hn : schemeNamed name with
    | none =>
      refine ⟨[], fun x y hx hy => ?_⟩
      simp [keyParts, hn]
    | some sch =>
      obtain rfl := schemeName_of_schemeNamed hn
      cases sch with
      | «local» => exact hr []
      | _ => exact absurd ⟨_, by decide, hs⟩ h
  | name :: [] :: first :: rest =>
    cases hn : schemeNamed name with
    | none =>
      refine ⟨[], fun x y hx hy => ?_⟩
      simp [keyParts, hn]
    | some sch =>
      cases sch with
      | «local» => simpa [keyParts, hn] using hr (first :: rest)
      | _ =>
        by_cases hfst : first = []
        · refine ⟨[], fun x y hx hy => ?_⟩
          simp [keyParts, hn, hfst]
        · simpa [keyParts, hn, hfst] using hr rest

lemma place_plain {wh : String} (h : ¬ NoBucket wh) :
    ∃ root, ∀ ident : TableIdent, Plain ident.nameSpace.toList → Plain ident.name.toList →
      place wh ident = root ++ [ident.nameSpace.toList, ident.name.toList] := by
  obtain ⟨root, hr⟩ := keyParts_plain h
  refine ⟨root, fun ident hns hn => ?_⟩
  have hown : [ident.nameSpace.toList, ident.name.toList].filter (· ≠ []) =
      [ident.nameSpace.toList, ident.name.toList] := by
    simp [hns.1, hn.1]
  unfold place
  rw [segments_of_notMem hns.2.1, segments_of_notMem hn.2.1]
  rw [List.singleton_append]
  dsimp only
  rw [hown]
  exact hr _ _ hns hn

/-- Different tables with valid names are apart below every warehouse that names its
bucket. -/
theorem not_nested_of_plain {wh : String} {i j : TableIdent} (h : ¬ NoBucket wh)
    (hi : Plain i.nameSpace.toList ∧ Plain i.name.toList)
    (hj : Plain j.nameSpace.toList ∧ Plain j.name.toList) (hne : i ≠ j) :
    ¬ Nested (place wh i) (place wh j) := by
  obtain ⟨root, hr⟩ := place_plain h
  rw [hr i hi.1 hi.2, hr j hj.1 hj.2]
  have heq (a b : TableIdent) (hpre : root ++ [a.nameSpace.toList, a.name.toList] <+:
      root ++ [b.nameSpace.toList, b.name.toList]) : a = b := by
    have hnames := List.IsPrefix.eq_of_length hpre (by simp)
    cases a
    cases b
    simpa [String.toList_inj] using hnames
  rintro (hpre | hpre)
  · exact hne (heq i j hpre)
  · exact hne (heq j i hpre).symm

/-- The names that pass the check of the REST endpoint. -/
theorem plain_of_validateNames {ident : TableIdent} (h : validateNames ident = .ok ()) :
    Plain ident.nameSpace.toList ∧ Plain ident.name.toList := by
  unfold validateNames at h
  cases hns : validateIdentifier "namespace" ident.nameSpace with
  | error e => rw [hns] at h; cases h
  | ok _ =>
    rw [hns] at h
    exact ⟨plain_of_validateIdentifier hns, plain_of_validateIdentifier h⟩

/-- When two tables are put apart. -/
structure PutApart (warehouse : String) (i j : TableIdent) (a b : ObjectLocation) : Prop where
  exact : Apart a b ↔ ¬ Nested (place warehouse i) (place warehouse j)
  valid : ¬ NoBucket warehouse → validateNames i = .ok () → validateNames j = .ok () → i ≠ j →
    Apart a b

/-- Two tables are apart exactly if the paths of their names are not nested, and always if both
names are valid. -/
theorem createLocation_putApart {warehouse : String} {i j : TableIdent} {p q : CreationPath}
    {a b : ObjectLocation} (ha : createLocation warehouse i p = .ok a)
    (hb : createLocation warehouse j q = .ok b) : PutApart warehouse i j a b := by
  have hex : Apart a b ↔ ¬ Nested (place warehouse i) (place warehouse j) := by
    rw [apart_iff, PathPrefix, PathPrefix, parts_createLocation ha, parts_createLocation hb,
      Nested, not_or]
  refine ⟨hex, fun hbk hi hj hne => hex.mpr ?_⟩
  exact not_nested_of_plain hbk (plain_of_validateNames hi) (plain_of_validateNames hj) hne

theorem events_putApart_events2 :
    ∃ a b, createLocation "s3://ddl-warehouse" ⟨"analytics", "events"⟩ .rest = .ok a ∧
      createLocation "s3://ddl-warehouse" ⟨"analytics", "events2"⟩ .sql = .ok b ∧ Apart a b := by
  have ha : createLocation "s3://ddl-warehouse" ⟨"analytics", "events"⟩ .rest =
      .ok ⟨.s3, some "ddl-warehouse", "analytics/events"⟩ := by decide +kernel
  have hb : createLocation "s3://ddl-warehouse" ⟨"analytics", "events2"⟩ .sql =
      .ok ⟨.s3, some "ddl-warehouse", "analytics/events2"⟩ := by decide +kernel
  refine ⟨_, _, ha, hb, (createLocation_putApart ha hb).exact.mpr ?_⟩
  unfold Nested
  decide +kernel

/-- Slashes in names put two tables of different namespaces at one location. -/
theorem slashes_share_location :
    ∃ (warehouse : String) (i j : TableIdent) (a b : ObjectLocation), i ≠ j ∧
      createLocation warehouse i .sql = .ok a ∧ createLocation warehouse j .sql = .ok b ∧
      a = b ∧ ¬ Apart a b := by
  refine ⟨"s3://teodb", ⟨"a", "b/c"⟩, ⟨"a/b", "c"⟩, ⟨.s3, some "teodb", "a/b/c"⟩,
    ⟨.s3, some "teodb", "a/b/c"⟩, by decide, by decide +kernel, by decide +kernel, rfl, ?_⟩
  exact fun h => h.left (List.prefix_refl _)

end TeoDB.Api

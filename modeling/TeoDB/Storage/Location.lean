import TeoDB.Storage.Wal.PreparedStore

/-!
# Object locations

A location is a scheme, a bucket and a key. Reading a URI normalises the key: it
drops a leading slash, repeated and trailing slashes, and refuses `..` segments.
Writing a location and reading it again gives it back; reading a URI and writing it
again gives the URI only if it was in normal form.

## Implementation notes

The functions work on the characters of a text. `Segments` is the normal form of a
key, a list of segments that are neither empty nor `..`.
-/

namespace TeoDB.Storage

open TeoDB.Core Storage.Wal

def StorageScheme.uriPrefix (bucket : Option String) : StorageScheme → String
  | .s3 => "s3://" ++ bucket.getD "" ++ "/"
  | .gcs => "gs://" ++ bucket.getD "" ++ "/"
  | .azureBlob => "abfs://" ++ bucket.getD "" ++ "/"
  | .local => "file://"

structure ObjectLocation where
  scheme : StorageScheme
  bucket : Option String
  key : String
deriving DecidableEq

inductive LocationError where
  | malformed (uri : String)
  | unsupportedScheme (scheme : String)
  | missingBucket
deriving DecidableEq

def LocationError.text : LocationError → String
  | .malformed uri => s!"malformed URI: {uri}"
  | .unsupportedScheme scheme => s!"unsupported scheme: {scheme}"
  | .missingBucket => "missing bucket for non-local scheme"

/-- The rest of a text after an expected beginning. -/
def strip? (literal text : List Char) : Option (List Char) :=
  if literal.isPrefixOf text then some (text.drop literal.length) else none

/-- The text before an expected end. -/
def stripSuffix? (literal text : List Char) : Option (List Char) :=
  (strip? literal.reverse text.reverse).map List.reverse

/-- The text before the first occurrence of a part, empty if there is none. -/
def textBefore (part : List Char) : List Char → List Char
  | text =>
    match text.inits.find? fun before => part.isPrefixOf (text.drop before.length) with
    | some before => before
    | none => []

namespace ObjectLocation

/-- Render a fully qualified URI. -/
def toUri (l : ObjectLocation) : String := StorageScheme.uriPrefix l.bucket l.scheme ++ l.key

def splitScheme (uri : List Char) : Except LocationError (StorageScheme × List Char) :=
  match strip? "s3://".toList uri with
  | some rest => .ok (.s3, rest)
  | none =>
    match strip? "gs://".toList uri with
    | some rest => .ok (.gcs, rest)
    | none =>
      match strip? "abfs://".toList uri with
      | some rest => .ok (.azureBlob, rest)
      | none =>
        match strip? "file://".toList uri with
        | some rest => .ok (.local, rest)
        | none => .error (.unsupportedScheme (String.ofList (textBefore "://".toList uri)))

/-- The segments of a key that a raw path has, empty ones included. -/
def rawSegments (raw : List Char) : List (List Char) :=
  match raw with
  | '/' :: rest => rest.splitOn '/'
  | _ => raw.splitOn '/'

def normalizeKey (raw : List Char) : Except LocationError (List Char) :=
  if "..".toList ∈ rawSegments raw then .error (.malformed "path contains '..' segment")
  else .ok (['/'].intercalate ((rawSegments raw).filter (· ≠ [])))

/-- The text around the first slash. -/
def splitBucket (rest : List Char) : Option (List Char × List Char) :=
  match rest.dropWhile (· ≠ '/') with
  | [] => none
  | _ :: key => some (rest.takeWhile (· ≠ '/'), key)

def parse (uri : String) : Except LocationError ObjectLocation :=
  match splitScheme uri.toList with
  | .error error => .error error
  | .ok (.local, rest) => (normalizeKey rest).map fun key => ⟨.local, none, String.ofList key⟩
  | .ok (scheme, rest) =>
    match splitBucket rest with
    | none => .error (.malformed s!"no key after bucket in: {uri}")
    | some ([], _) => .error .missingBucket
    | some (bucket, rawKey) =>
      (normalizeKey rawKey).map fun key =>
        ⟨scheme, some (String.ofList bucket), String.ofList key⟩

end ObjectLocation

/-- The segments of a normalised key. -/
def Segments (segments : List (List Char)) : Prop :=
  ∀ segment ∈ segments, segment ≠ [] ∧ '/' ∉ segment ∧ segment ≠ "..".toList

lemma notMem_of_mem_splitOn {l seg : List Char} (h : seg ∈ l.splitOn '/') : '/' ∉ seg := by
  induction l generalizing seg with
  | nil =>
    rw [List.splitOn_nil, List.mem_singleton] at h
    simp [h]
  | cons c rest ih =>
    rw [List.splitOn_cons_eq_if_modifyHead] at h
    split_ifs at h with hc
    · rcases List.mem_cons.mp h with rfl | h
      · exact List.not_mem_nil
      · exact ih h
    · cases hsp : rest.splitOn '/' with
      | nil => exact absurd hsp (List.splitOn_ne_nil _ _)
      | cons first others =>
        rw [hsp] at h ih
        rcases List.mem_cons.mp h with rfl | h
        · have hne : '/' ≠ c := by
            rintro rfl
            exact hc (beq_self_eq_true _)
          simpa [hne] using ih List.mem_cons_self
        · exact ih (List.mem_cons_of_mem _ h)

lemma rawSegments_filter {raw : List Char} (h : "..".toList ∉ ObjectLocation.rawSegments raw) :
    Segments ((ObjectLocation.rawSegments raw).filter (· ≠ [])) := by
  intro sg hseg
  obtain ⟨hmem, hne⟩ := List.mem_filter.mp hseg
  refine ⟨by simpa using hne, ?_, ?_⟩
  · unfold ObjectLocation.rawSegments at hmem
    split at hmem
    · exact notMem_of_mem_splitOn hmem
    · exact notMem_of_mem_splitOn hmem
  · rintro rfl
    exact h hmem

lemma normalizeKey_segments {raw key : List Char}
    (h : ObjectLocation.normalizeKey raw = .ok key) :
    ∃ segs, Segments segs ∧ key = ['/'].intercalate segs := by
  unfold ObjectLocation.normalizeKey at h
  split_ifs at h with hpar
  cases h
  exact ⟨_, rawSegments_filter hpar, rfl⟩

lemma rawSegments_intercalate {segs : List (List Char)} (h : Segments segs)
    (hne : segs ≠ []) : ObjectLocation.rawSegments (['/'].intercalate segs) = segs := by
  have hsp : (['/'].intercalate segs).splitOn '/' = segs :=
    List.splitOn_intercalate '/' (fun seg hseg => (h seg hseg).2.1) hne
  unfold ObjectLocation.rawSegments
  split
  · rename_i rest hr
    obtain ⟨first, os, rfl⟩ := List.exists_cons_of_ne_nil hne
    obtain ⟨hfirst, hslash, _⟩ := h first List.mem_cons_self
    obtain ⟨c, tail, rfl⟩ := List.exists_cons_of_ne_nil hfirst
    have hc : c = '/' := by
      cases os with
      | nil =>
        have := List.cons.inj (by simpa using hr)
        exact this.1
      | cons second os =>
        have hcons := List.cons.inj (by simpa [List.intercalate_cons_cons] using hr)
        exact hcons.1
    exact absurd (hc ▸ List.mem_cons_self) hslash
  · exact hsp

lemma normalizeKey_intercalate {segs : List (List Char)} (h : Segments segs) :
    ObjectLocation.normalizeKey (['/'].intercalate segs) = .ok (['/'].intercalate segs) := by
  cases segs with
  | nil => decide
  | cons first os =>
    have hraw := rawSegments_intercalate h (List.cons_ne_nil _ _)
    have hpar : "..".toList ∉ first :: os := fun hmem => (h _ hmem).2.2 rfl
    have hfil : (first :: os).filter (· ≠ []) = first :: os := by
      rw [List.filter_eq_self]
      exact fun seg hseg => by simpa using (h seg hseg).1
    unfold ObjectLocation.normalizeKey
    rw [hraw, if_neg hpar, hfil]

/-- The buckets that a scheme has. -/
def BucketOf : StorageScheme → Option String → Prop
  | .local, bucket => bucket = none
  | _, bucket => ∃ name : List Char, name ≠ [] ∧ '/' ∉ name ∧ bucket = some (String.ofList name)

/-- A location as reading gives it. -/
structure ObjectLocation.Normal (l : ObjectLocation) : Prop where
  bucket : BucketOf l.scheme l.bucket
  key : ∃ segments, Segments segments ∧ l.key = String.ofList (['/'].intercalate segments)

@[simp] lemma strip?_append (lit rest : List Char) : strip? lit (lit ++ rest) = some rest := by
  simp [strip?]

lemma splitBucket_append {name : List Char} (key : List Char) (h : '/' ∉ name) :
    ObjectLocation.splitBucket (name ++ '/' :: key) = some (name, key) := by
  have hn : ∀ c ∈ name, decide (c ≠ '/') = true := by
    intro c hc
    apply decide_eq_true
    rintro rfl
    exact h hc
  unfold ObjectLocation.splitBucket
  rw [List.dropWhile_append_of_pos hn, List.takeWhile_append_of_pos hn]
  simp

lemma splitBucket_eq_some {rest name key : List Char}
    (h : ObjectLocation.splitBucket rest = some (name, key)) : '/' ∉ name := by
  unfold ObjectLocation.splitBucket at h
  split at h
  · cases h
  · cases h
    intro hmem
    simpa using List.mem_takeWhile_imp hmem

lemma ObjectLocation.parse_normal {uri : String} {l : ObjectLocation}
    (h : ObjectLocation.parse uri = .ok l) : l.Normal := by
  unfold ObjectLocation.parse at h
  split at h
  · cases h
  · rename_i rest _
    cases hkey : ObjectLocation.normalizeKey rest with
    | error e => simp [hkey, Except.map] at h
    | ok key =>
      simp only [hkey, Except.map, Except.ok.injEq] at h
      obtain ⟨segs, hsegs, rfl⟩ := normalizeKey_segments hkey
      subst h
      exact ⟨rfl, segs, hsegs, rfl⟩
  · rename_i sch rest hlocal _
    split at h
    · cases h
    · cases h
    · rename_i name rawKey hn hbk
      cases hkey : ObjectLocation.normalizeKey rawKey with
      | error e => simp [hkey, Except.map] at h
      | ok key =>
        simp only [hkey, Except.map, Except.ok.injEq] at h
        obtain ⟨segs, hsegs, rfl⟩ := normalizeKey_segments hkey
        subst h
        refine ⟨?_, segs, hsegs, rfl⟩
        have hslash := splitBucket_eq_some hbk
        cases sch with
        | «local» => exact absurd rfl hlocal
        | _ => exact ⟨name, hn, hslash, rfl⟩

/-- How URIs of a scheme begin. -/
def schemeChars : StorageScheme → List Char
  | .s3 => ['s', '3', ':', '/', '/']
  | .gcs => ['g', 's', ':', '/', '/']
  | .azureBlob => ['a', 'b', 'f', 's', ':', '/', '/']
  | .local => ['f', 'i', 'l', 'e', ':', '/', '/']

lemma splitScheme_append (sch : StorageScheme) (rest : List Char) :
    ObjectLocation.splitScheme (schemeChars sch ++ rest) = .ok (sch, rest) := by
  cases sch <;> rfl

/-- What follows the scheme of a URI is read the same way for all but local files. -/
theorem parse_remote {sch : StorageScheme} {uri : String} {name key : List Char}
    (hsch : sch ≠ .local) (huri : uri.toList = schemeChars sch ++ (name ++ '/' :: key))
    (hn : name ≠ []) (hslash : '/' ∉ name) (hkey : ObjectLocation.normalizeKey key = .ok key) :
    ObjectLocation.parse uri = .ok ⟨sch, some (String.ofList name), String.ofList key⟩ := by
  unfold ObjectLocation.parse
  rw [huri, splitScheme_append]
  cases sch with
  | «local» => exact absurd rfl hsch
  | _ =>
    have hsp := splitBucket_append key hslash
    obtain ⟨c, tail, rfl⟩ := List.exists_cons_of_ne_nil hn
    simp only [hsp, hkey, Except.map]

/-- A location that is written and read again is the same. -/
theorem ObjectLocation.parse_toUri {l : ObjectLocation} (h : l.Normal) :
    ObjectLocation.parse l.toUri = .ok l := by
  obtain ⟨sch, bk, key⟩ := l
  obtain ⟨hbk, segs, hsegs, rfl⟩ := h
  have hkey := normalizeKey_intercalate hsegs
  cases sch with
  | «local» =>
    obtain rfl : bk = none := hbk
    have huri : (ObjectLocation.toUri ⟨.local, none,
        String.ofList (['/'].intercalate segs)⟩).toList =
        schemeChars .local ++ ['/'].intercalate segs := by
      simp [ObjectLocation.toUri, StorageScheme.uriPrefix, schemeChars]
    unfold ObjectLocation.parse
    rw [huri, splitScheme_append]
    simp [hkey, Except.map]
  | _ =>
    obtain ⟨name, hn, hslash, rfl⟩ := hbk
    apply parse_remote (by decide) ?_ hn hslash hkey
    simp [ObjectLocation.toUri, StorageScheme.uriPrefix, schemeChars]

/-- A URI is in normal form if it is what its location renders. -/
def NormalUri (uri : String) : Prop :=
  ∃ l : ObjectLocation, l.Normal ∧ l.toUri = uri

/-- A readable URI is kept by reading and writing exactly if it is in normal form. -/
theorem toUri_parse_eq_iff {uri : String} {l : ObjectLocation}
    (h : ObjectLocation.parse uri = .ok l) : l.toUri = uri ↔ NormalUri uri := by
  constructor
  · exact fun heq => ⟨l, ObjectLocation.parse_normal h, heq⟩
  · rintro ⟨l', hnor, rfl⟩
    rw [ObjectLocation.parse_toUri hnor, Except.ok.injEq] at h
    rw [h]

end TeoDB.Storage

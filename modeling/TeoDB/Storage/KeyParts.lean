import TeoDB.Storage.Location

/-!
# Keys as paths

Listings and prefixes of an object store work on the parts of a key, the texts between
its slashes that are not empty. `ObjectLocation.parse` is read here over the segments of
a URI. Joining texts with slashes then is appending their segments.
-/

namespace TeoDB.Storage

open Storage.Wal

/-- The texts between the slashes, empty ones included. -/
def segments (text : List Char) : List (List Char) := text.splitOn '/'

/-- The parts of a key: its segments that are not empty. -/
def parts (key : List Char) : List (List Char) := (segments key).filter (· ≠ [])

@[simp] lemma segments_append (a b : List Char) :
    segments (a ++ '/' :: b) = segments a ++ segments b :=
  List.splitOn_append_cons_self a b

lemma segments_of_notMem {text : List Char} (h : '/' ∉ text) : segments text = [text] := by
  have hsegs : ∀ seg ∈ [text], '/' ∉ seg := fun seg hseg => by
    rwa [List.mem_singleton.mp hseg]
  have hsp := List.splitOn_intercalate '/' hsegs (List.cons_ne_nil _ _)
  simpa [segments] using hsp

lemma segments_ne_nil (text : List Char) : segments text ≠ [] := List.splitOn_ne_nil _ _

lemma segments_cases (text : List Char) : ('/' ∉ text ∧ segments text = [text]) ∨
      ∃ first rest, '/' ∉ first ∧ text = first ++ '/' :: rest ∧
        segments text = first :: segments rest := by
  by_cases h : '/' ∈ text
  · right
    obtain ⟨first, rest, rfl, hfst⟩ := List.eq_append_cons_of_mem h
    refine ⟨first, rest, hfst, rfl, ?_⟩
    rw [segments_append, segments_of_notMem hfst, List.singleton_append]
  · exact Or.inl ⟨h, segments_of_notMem h⟩

section

lemma lawfulBEq_segment : LawfulBEq (List Char) := inferInstance

attribute [local instance] lawfulBEq_segment

/-- The parts of a key whose segments are given, unless one of them leads upwards. -/
def visibleParts (segs : List (List Char)) : Option (List (List Char)) :=
  if "..".toList ∈ segs then none else some (segs.filter (· ≠ []))

end

lemma rawSegments_eq (raw : List Char) : ObjectLocation.rawSegments raw = segments raw ∨
      segments raw = [] :: ObjectLocation.rawSegments raw := by
  unfold ObjectLocation.rawSegments
  split
  · rename_i rest
    right
    exact segments_append [] rest
  · exact Or.inl rfl

lemma visibleParts_rawSegments (raw : List Char) :
    visibleParts (ObjectLocation.rawSegments raw) = visibleParts (segments raw) := by
  rcases rawSegments_eq raw with h | h
  · rw [h]
  · simp [h, visibleParts]

lemma parts_intercalate {segs : List (List Char)} (h : Segments segs) :
    parts (['/'].intercalate segs) = segs := by
  cases segs with
  | nil => rfl
  | cons first os =>
    have hsp : segments (['/'].intercalate (first :: os)) = first :: os :=
      List.splitOn_intercalate '/' (fun seg hseg => (h seg hseg).2.1) (List.cons_ne_nil _ _)
    rw [parts, hsp, List.filter_eq_self]
    exact fun seg hseg => by simpa using (h seg hseg).1

lemma normalizeKey_parts (raw : List Char) :
    (ObjectLocation.normalizeKey raw).toOption.map parts = visibleParts (segments raw) := by
  rw [← visibleParts_rawSegments]
  unfold ObjectLocation.normalizeKey visibleParts
  split_ifs with hpar
  · rfl
  · exact congrArg some (parts_intercalate (rawSegments_filter hpar))

def schemeName : StorageScheme → List Char
  | .s3 => ['s', '3', ':']
  | .gcs => ['g', 's', ':']
  | .azureBlob => ['a', 'b', 'f', 's', ':']
  | .local => ['f', 'i', 'l', 'e', ':']

def schemeNamed (name : List Char) : Option StorageScheme :=
  [StorageScheme.s3, .gcs, .azureBlob, .local].find? fun scheme => schemeName scheme == name

@[simp] lemma schemeNamed_schemeName (sch : StorageScheme) :
    schemeNamed (schemeName sch) = some sch := by
  cases sch <;> rfl

lemma schemeName_of_schemeNamed {name : List Char} {sch : StorageScheme}
    (h : schemeNamed name = some sch) : schemeName sch = name := by
  simpa using List.find?_some h

lemma schemeChars_eq (sch : StorageScheme) : schemeChars sch = schemeName sch ++ ['/', '/'] := by
  cases sch <;> rfl

lemma segments_schemeChars (sch : StorageScheme) (rest : List Char) :
    segments (schemeChars sch ++ rest) = schemeName sch :: [] :: segments rest := by
  have hn : '/' ∉ schemeName sch := by cases sch <;> decide
  have huri : schemeChars sch ++ rest = schemeName sch ++ '/' :: ([] ++ '/' :: rest) := by
    simp [schemeChars_eq]
  rw [huri, segments_append, segments_append, segments_of_notMem hn]
  rfl

/-- The parts of the key that a URI with these segments names, if it can be read. -/
def keyParts : List (List Char) → Option (List (List Char))
  | name :: [] :: first :: rest =>
    match schemeNamed name with
    | some .local => visibleParts (first :: rest)
    | some _ => if first = [] ∨ rest = [] then none else visibleParts rest
    | none => none
  | _ => none

lemma eq_of_strip? {lit text rest : List Char} (h : strip? lit text = some rest) :
    text = lit ++ rest := by
  unfold strip? at h
  split_ifs at h with hpre
  cases h
  obtain ⟨rest, rfl⟩ := List.isPrefixOf_iff_prefix.mp hpre
  simp

lemma eq_of_stripSuffix? {lit text stem : List Char}
    (h : stripSuffix? lit text = some stem) : text = stem ++ lit := by
  obtain ⟨rest, hr, rfl⟩ := Option.map_eq_some_iff.mp h
  have hrev := congrArg List.reverse (eq_of_strip? hr)
  simpa using hrev

@[simp] lemma stripSuffix?_append (stem lit : List Char) :
    stripSuffix? lit (stem ++ lit) = some stem := by
  simp [stripSuffix?]

lemma eq_of_splitScheme {uri rest : List Char} {sch : StorageScheme}
    (h : ObjectLocation.splitScheme uri = .ok (sch, rest)) : uri = schemeChars sch ++ rest := by
  unfold ObjectLocation.splitScheme at h
  repeat' split at h
  all_goals cases h
  all_goals exact eq_of_strip? (by assumption)

lemma splitScheme_of_segments {uri name first : List Char} {rest : List (List Char)}
    {sch : StorageScheme} (hs : segments uri = name :: [] :: first :: rest)
    (hn : schemeNamed name = some sch) :
    ObjectLocation.splitScheme uri = .ok (sch, ['/'].intercalate (first :: rest)) := by
  have huri : uri = schemeChars sch ++ ['/'].intercalate (first :: rest) :=
    calc
      uri = ['/'].intercalate (segments uri) := (List.intercalate_splitOn _).symm
      _ = schemeChars sch ++ ['/'].intercalate (first :: rest) := by
        rw [hs, schemeChars_eq, schemeName_of_schemeNamed hn]
        simp [List.intercalate_cons_cons]
  rw [huri, splitScheme_append]

lemma keyParts_of_splitScheme_error {uri : List Char} {e : LocationError}
    (h : ObjectLocation.splitScheme uri = .error e) : keyParts (segments uri) = none := by
  unfold keyParts
  split
  · rename_i name first rest hs
    cases hn : schemeNamed name with
    | none => rfl
    | some scheme =>
      rw [splitScheme_of_segments hs hn] at h
      cases h
  · rfl

lemma keyParts_remote {sch : StorageScheme} (hscheme : sch ≠ .local) (rest : List Char) :
    keyParts (schemeName sch :: [] :: segments rest) =
      match ObjectLocation.splitBucket rest with
      | none => none
      | some ([], _) => none
      | some (_, key) => visibleParts (segments key) := by
  rcases segments_cases rest with ⟨hslash, hs⟩ | ⟨bk, key, hbk, rfl, hs⟩
  · have hn : ObjectLocation.splitBucket rest = none := by
      have hd : rest.dropWhile (· ≠ '/') = [] := by
        rw [List.dropWhile_eq_nil_iff]
        intro c hc
        apply decide_eq_true
        rintro rfl
        exact hslash hc
      unfold ObjectLocation.splitBucket
      rw [hd]
    rw [hn, hs]
    cases sch <;> simp_all [keyParts]
  · rw [splitBucket_append key hbk, hs]
    cases bk with
    | nil => cases sch <;> simp_all [keyParts]
    | cons c name => cases sch <;> simp_all [keyParts, segments_ne_nil]

/-- Reading a URI, by its segments. -/
theorem parse_parts (uri : String) :
    (ObjectLocation.parse uri).toOption.map (fun l => parts l.key.toList) =
      keyParts (segments uri.toList) := by
  unfold ObjectLocation.parse
  cases hsch : ObjectLocation.splitScheme uri.toList with
  | error e => simp [keyParts_of_splitScheme_error hsch, Except.toOption]
  | ok res =>
    obtain ⟨sch, rest⟩ := res
    rw [eq_of_splitScheme hsch, segments_schemeChars]
    have hkey (raw : List Char) (f : List Char → ObjectLocation)
        (hf : ∀ key, (f key).key = String.ofList key) :
        ((ObjectLocation.normalizeKey raw).map f).toOption.map (fun l => parts l.key.toList) =
          visibleParts (segments raw) := by
      rw [← normalizeKey_parts]
      cases ObjectLocation.normalizeKey raw <;> simp [Except.map, Except.toOption, hf]
    cases sch with
    | «local» =>
      refine (hkey rest _ fun key => rfl).trans ?_
      obtain ⟨first, others, hs⟩ := List.exists_cons_of_ne_nil (segments_ne_nil rest)
      simp [keyParts, hs]
    | _ =>
      rw [keyParts_remote (by decide)]
      dsimp only
      cases ObjectLocation.splitBucket rest with
      | none => rfl
      | some pair =>
        obtain ⟨bk, key⟩ := pair
        cases bk with
        | nil => rfl
        | cons c name => exact hkey key _ fun _ => rfl

end TeoDB.Storage

import TeoDB.Storage.KeyParts

/-!
# Object keys and the paths of the store

Every operation of the storage adapter turns its key into a path of the object store,
which percent-encodes reserved characters. A listing yields the paths themselves as
keys, and these are encoded again when they are used.

## Implementation notes

Which characters are reserved is the store's: the percent sign, the asterisk and the question mark
are, letters, digits and the punctuation of file names are not. The parts `.` and `..` are encoded
as a whole.
-/

namespace TeoDB.Storage

/-- The characters that file names are made of. -/
def isPlain (c : Char) : Bool := c.isAlphanum || ['-', '_', '.', '=', '+'].contains c

/-- The reserved characters of an object store. -/
structure PathRules where
  reserved : Char → Bool
  percent : reserved '%' = true
  asterisk : reserved '*' = true
  question : reserved '?' = true
  plain : ∀ c, isPlain c = true → reserved c = false

/-- The escape of one byte. -/
def escapeByte (byte : UInt8) : List Char :=
  ['%', (Nat.digitChar (byte.toNat / 16)).toUpper, (Nat.digitChar (byte.toNat % 16)).toUpper]

lemma isPlain_upperDigit {d : Nat} (h : d < 16) : isPlain (Nat.digitChar d).toUpper = true := by
  revert d
  decide

/-- An escape has no character but the percent sign that is not plain. -/
theorem isPlain_of_mem_escapeByte {byte : UInt8} {c : Char} (h : c ∈ escapeByte byte) :
    c = '%' ∨ isPlain c = true := by
  have hlt : byte.toNat < 256 := byte.toNat_lt
  simp only [escapeByte, List.mem_cons, List.not_mem_nil, or_false] at h
  obtain rfl | rfl | rfl := h
  · exact Or.inl rfl
  · exact Or.inr (isPlain_upperDigit (by omega))
  · exact Or.inr (isPlain_upperDigit (by omega))

lemma toNat_of_isAlphanum {c : Char} (h : c.isAlphanum = true) :
    (48 ≤ c.toNat ∧ c.toNat ≤ 57) ∨ (65 ≤ c.toNat ∧ c.toNat ≤ 90) ∨
      (97 ≤ c.toNat ∧ c.toNat ≤ 122) := by
  simp only [Char.isAlphanum, Char.isAlpha, Char.isUpper, Char.isLower, Char.isDigit,
    Bool.or_eq_true, Bool.and_eq_true, decide_eq_true_eq, UInt32.le_iff_toNat_le, ge_iff_le] at h
  simp at h
  omega

/-- The reserved characters by their codes. -/
def objectStoreReserved (c : Char) : Bool :=
  decide (c.toNat < 32) || decide (127 ≤ c.toNat) ||
    [0x22, 0x23, 0x25, 0x2a, 0x2f, 0x3c, 0x3e, 0x3f, 0x5b, 0x5c, 0x5d, 0x5e, 0x60, 0x7b, 0x7c,
      0x7d, 0x7e].contains c.toNat

lemma objectStoreReserved_of_isPlain {c : Char} (h : isPlain c = true) :
    objectStoreReserved c = false := by
  simp only [isPlain, Bool.or_eq_true] at h
  obtain h | h := h
  · have hrange := toNat_of_isAlphanum h
    simp [objectStoreReserved]
    omega
  · simp only [List.contains_cons, List.contains_nil, Bool.or_false, Bool.or_eq_true,
      beq_iff_eq] at h
    rcases h with rfl | rfl | rfl | rfl | rfl <;> decide

/-- The rules of the object store library. -/
def objectStoreRules : PathRules where
  reserved := objectStoreReserved
  percent := by decide
  asterisk := by decide
  question := by decide
  plain _ := objectStoreReserved_of_isPlain

namespace PathRules

variable (rules : PathRules)

def encodeChar (c : Char) : List Char :=
  if rules.reserved c then (String.utf8EncodeChar c).flatMap escapeByte else [c]

/-- One part of a path. -/
def encodePart (part : List Char) : List Char :=
  if part = ['.'] then "%2E".toList
  else if part = ['.', '.'] then "%2E%2E".toList
  else part.flatMap rules.encodeChar

/-- The path of the store that a key becomes. -/
def toOsPath (key : List Char) : List Char :=
  ['/'].intercalate ((parts key).map rules.encodePart)

/-- A segment that is its own path. -/
def CleanSegment (segment : List Char) : Prop :=
  segment ≠ [] ∧ segment ≠ ['.'] ∧ segment ≠ ['.', '.'] ∧ ∀ c ∈ segment, rules.reserved c = false

/-- A key that is its own path. -/
def Clean (key : List Char) : Prop := ∀ segment ∈ segments key, rules.CleanSegment segment

instance (segment : List Char) : Decidable (rules.CleanSegment segment) :=
  have : Decidable (∀ c ∈ segment, rules.reserved c = false) := List.decidableBAll _ segment
  inferInstanceAs (Decidable (_ ∧ _ ∧ _ ∧ _))

instance (key : List Char) : Decidable (rules.Clean key) :=
  List.decidableBAll rules.CleanSegment (segments key)

variable {rules}

lemma slash_notMem_encodeChar {c : Char} (h : c ≠ '/') : '/' ∉ rules.encodeChar c := by
  unfold encodeChar
  split_ifs
  · intro hmem
    obtain ⟨byte, _, hb⟩ := List.mem_flatMap.mp hmem
    obtain heq | hpl := isPlain_of_mem_escapeByte hb
    · exact absurd heq (by decide)
    · exact absurd hpl (by decide)
  · simpa using h.symm

lemma slash_notMem_encodePart {part : List Char} (h : '/' ∉ part) :
    '/' ∉ rules.encodePart part := by
  unfold encodePart
  split_ifs
  · decide
  · decide
  · intro hmem
    obtain ⟨c, hc, hslash⟩ := List.mem_flatMap.mp hmem
    refine slash_notMem_encodeChar ?_ hslash
    rintro rfl
    exact h hc

/-- Each byte of a reserved character takes three characters. -/
theorem length_encodeChar (c : Char) :
    (rules.encodeChar c).length = if rules.reserved c then c.utf8Size * 3 else 1 := by
  unfold encodeChar
  split_ifs
  · simp [escapeByte]
  · rfl

variable (rules) in
lemma one_le_length_encodeChar (c : Char) : 1 ≤ (rules.encodeChar c).length := by
  have hsize := c.utf8Size_pos
  rw [length_encodeChar]
  split_ifs <;> omega

lemma reserved_eq_false_of_encodeChar {c : Char} (h : (rules.encodeChar c).length = 1) :
    rules.reserved c = false := by
  rw [length_encodeChar] at h
  split_ifs at h with hrsv
  · omega
  · simpa using hrsv

variable (rules) in
lemma length_le_length_encoded (text : List Char) :
    text.length ≤ (text.flatMap rules.encodeChar).length := by
  induction text with
  | nil => simp
  | cons c rest ih =>
    have hc := rules.one_le_length_encodeChar c
    simp only [List.flatMap_cons, List.length_append, List.length_cons]
    omega

lemma encoded_eq_iff (text : List Char) :
    text.flatMap rules.encodeChar = text ↔ ∀ c ∈ text, rules.reserved c = false := by
  constructor
  · intro heq
    induction text with
    | nil => simp
    | cons c rest ih =>
      have hc := rules.one_le_length_encodeChar c
      have hrest := rules.length_le_length_encoded rest
      have hlen := congrArg List.length heq
      simp only [List.flatMap_cons, List.length_append, List.length_cons] at hlen
      have hone : (rules.encodeChar c).length = 1 := by omega
      have hk := reserved_eq_false_of_encodeChar hone
      have ht : rest.flatMap rules.encodeChar = rest := by
        rw [List.flatMap_cons, encodeChar, if_neg (by simp [hk])] at heq
        exact (List.cons.inj heq).2
      intro d hd
      rcases List.mem_cons.mp hd with rfl | hd
      · exact hk
      · exact ih ht d hd
  · intro hk
    induction text with
    | nil => rfl
    | cons c rest ih =>
      have hc := hk c List.mem_cons_self
      rw [List.flatMap_cons, ih fun d hd => hk d (List.mem_cons_of_mem _ hd), encodeChar,
        if_neg (by simp [hc]), List.singleton_append]

lemma encodePart_eq_iff {part : List Char} (hne : part ≠ []) :
    rules.encodePart part = part ↔ rules.CleanSegment part := by
  unfold encodePart CleanSegment
  split_ifs with hdot hd
  · subst hdot
    simp
  · subst hd
    simp
  · simp [hne, hdot, hd, encoded_eq_iff]

lemma encodePart_ne_nil {part : List Char} (h : part ≠ []) : rules.encodePart part ≠ [] := by
  unfold encodePart
  split_ifs
  · decide
  · decide
  · have hlength := rules.length_le_length_encoded part
    have hpos := List.length_pos_iff.mpr h
    exact List.length_pos_iff.mp (by omega)

variable (rules) in
/-- The segments of a path are the encoded parts of the key. -/
theorem segments_toOsPath {key : List Char} (h : parts key ≠ []) :
    segments (rules.toOsPath key) = (parts key).map rules.encodePart := by
  apply List.splitOn_intercalate '/'
  · intro sg hseg
    obtain ⟨part, hp, rfl⟩ := List.mem_map.mp hseg
    exact slash_notMem_encodePart (notMem_of_mem_splitOn (List.mem_filter.mp hp).1)
  · simpa using h

lemma parts_ne_nil_of_toOsPath {key : List Char} (hne : key ≠ [])
    (h : rules.toOsPath key = key) : parts key ≠ [] := by
  intro hnil
  rw [toOsPath, hnil] at h
  exact hne h.symm

/-- The keys that are their own path. -/
theorem toOsPath_eq_iff {key : List Char} (hne : key ≠ []) :
    rules.toOsPath key = key ↔ rules.Clean key := by
  constructor
  · intro heq
    have hs := rules.segments_toOsPath (parts_ne_nil_of_toOsPath hne heq)
    rw [heq] at hs
    have hall : parts key = segments key := by
      apply List.filter_eq_self.mpr
      apply List.length_filter_eq_length_iff.mp
      have hlen := congrArg List.length hs
      rw [List.length_map] at hlen
      exact hlen.symm
    rw [hall] at hs
    intro seg hseg
    have hnon : seg ≠ [] := by
      rw [← hall] at hseg
      simpa using (List.mem_filter.mp hseg).2
    apply (encodePart_eq_iff hnon).mp
    rw [← List.map_id (segments key), List.map_map] at hs
    exact (List.map_eq_map_iff.mp hs seg hseg).symm
  · intro hcl
    have hall : parts key = segments key := by
      apply List.filter_eq_self.mpr
      exact fun seg hseg => decide_eq_true (hcl seg hseg).1
    have hmap : (segments key).map rules.encodePart = segments key := by
      rw [← List.map_id (segments key), List.map_map]
      apply List.map_congr_left
      intro seg hseg
      have hsec := hcl seg hseg
      exact (encodePart_eq_iff hsec.1).mpr hsec
    rw [toOsPath, hall, hmap]
    exact List.intercalate_splitOn '/'

lemma clean_append {a b : List Char} :
    rules.Clean (a ++ '/' :: b) ↔ rules.Clean a ∧ rules.Clean b := by
  simp [Clean, or_imp, forall_and]

lemma clean_of_notMem {text : List Char} (h : '/' ∉ text) :
    rules.Clean text ↔ rules.CleanSegment text := by
  simp [Clean, segments_of_notMem h]

end PathRules

/-- The objects of a bucket by their paths. -/
abbrev Bucket := List (List Char × List UInt8)

/-- One key is below another, part by part. -/
def Below (dir key : List Char) : Prop :=
  parts dir <+: parts key ∧ (parts dir).length < (parts key).length

instance (dir key : List Char) : Decidable (Below dir key) :=
  inferInstanceAs (Decidable (_ ∧ _))

namespace PathRules

variable (rules : PathRules)

variable (key : List Char)

def get (bucket : Bucket) : Option (List UInt8) :=
  (bucket.find? fun object => object.1 = rules.toOsPath key).map Prod.snd

/-- The key that was asked for and the size of the object. -/
def head (bucket : Bucket) : Option (List Char × Nat) :=
  (rules.get key bucket).map fun bytes => (key, bytes.length)

def delete (bucket : Bucket) : Bucket :=
  bucket.filter fun object => object.1 ≠ rules.toOsPath key

def put (bytes : List UInt8) (bucket : Bucket) : Bucket :=
  (rules.toOsPath key, bytes) :: rules.delete key bucket

/-- The keys of the objects below a key. -/
def list (dir : List Char) (bucket : Bucket) : List (List Char) :=
  (bucket.map Prod.fst).filter fun path => Below (rules.toOsPath dir) path

/-- A listing that has the object which was put under a key yields it as `listed`. -/
def ListedAs (bucket : Bucket) (key : List Char) (bytes : List UInt8) (listed : List Char) : Prop :=
  ∃ dir, Below dir key ∧ listed ∈ rules.list dir (rules.put key bytes bucket) ∧
    listed ∉ rules.list dir (rules.delete key bucket)

/-- Listings yield an object under the key it was put under, and the other operations reach it by
it. -/
structure OneObject (key : List Char) : Prop where
  appears : ∀ bucket bytes dir, Below dir key → key ∈ rules.list dir (rules.put key bytes bucket)
  listed : ∀ bucket bytes listed, rules.ListedAs bucket key bytes listed → listed = key
  got : ∀ bucket bytes listed, rules.ListedAs bucket key bytes listed →
    rules.get listed (rules.put key bytes bucket) = some bytes
  headed : ∀ bucket bytes listed, rules.ListedAs bucket key bytes listed →
    rules.head listed (rules.put key bytes bucket) = some (listed, bytes.length)
  deleted : ∀ bucket bytes listed, rules.ListedAs bucket key bytes listed →
    rules.get key (rules.delete listed (rules.put key bytes bucket)) = none

variable {rules}

lemma parts_toOsPath : parts (rules.toOsPath key) = (parts key).map rules.encodePart := by
  by_cases h : parts key = []
  · rw [toOsPath, h]
    rfl
  · rw [parts, rules.segments_toOsPath h, List.filter_eq_self]
    intro sg hseg
    obtain ⟨part, hp, rfl⟩ := List.mem_map.mp hseg
    have hne : part ≠ [] := by simpa using (List.mem_filter.mp hp).2
    exact decide_eq_true (encodePart_ne_nil hne)

lemma below_toOsPath {dir key : List Char} (h : Below dir key) :
    Below (rules.toOsPath dir) (rules.toOsPath key) := by
  unfold Below
  rw [parts_toOsPath, parts_toOsPath, List.length_map, List.length_map]
  exact ⟨h.1.map _, h.2⟩

lemma toOsPath_notMem_delete (key dir : List Char) (bk : Bucket) :
    rules.toOsPath key ∉ rules.list dir (rules.delete key bk) := by
  simp [list, delete]

lemma list_put {dir key : List Char} (h : Below dir key) (bs : List UInt8) (bk : Bucket) :
    rules.list dir (rules.put key bs bk) =
      rules.toOsPath key :: rules.list dir (rules.delete key bk) := by
  simp [list, put, below_toOsPath h]

lemma listedAs_iff {key ls : List Char} (hne : parts key ≠ []) (bs : List UInt8) (bk : Bucket) :
    rules.ListedAs bk key bs ls ↔ ls = rules.toOsPath key := by
  constructor
  · rintro ⟨dir, hbl, hmem, hnot⟩
    rw [list_put hbl] at hmem
    exact (List.mem_cons.mp hmem).resolve_right hnot
  · rintro rfl
    have hbl : Below [] key := ⟨List.nil_prefix, List.length_pos_iff.mpr hne⟩
    refine ⟨[], hbl, ?_, toOsPath_notMem_delete key [] bk⟩
    rw [list_put hbl]
    exact List.mem_cons_self

lemma get_put (bs : List UInt8) (bk : Bucket) :
    rules.get key (rules.put key bs bk) = some bs := by
  simp [get, put]

lemma get_delete (bk : Bucket) : rules.get key (rules.delete key bk) = none := by
  simp [get, delete]

/-- Exactly the keys that are their own path mean one object. -/
theorem oneObject_iff_clean {key : List Char} (hne : parts key ≠ []) :
    rules.OneObject key ↔ rules.Clean key := by
  have hkey : key ≠ [] := by
    rintro rfl
    exact hne rfl
  rw [← toOsPath_eq_iff hkey]
  constructor
  · intro h
    exact h.listed [] [] _ ((listedAs_iff hne [] []).mpr rfl)
  · intro heq
    have hls : ∀ {bk bs ls}, rules.ListedAs bk key bs ls →
        ls = key := fun h => ((listedAs_iff hne _ _).mp h).trans heq
    refine ⟨?_, fun _ _ _ => hls, ?_, ?_, ?_⟩
    · intro bk bs dir hbl
      rw [list_put hbl, heq]
      exact List.mem_cons_self
    · intro bk bs ls h
      rw [hls h, get_put]
    · intro bk bs ls h
      rw [head, hls h, get_put, Option.map_some]
    · intro bk bs ls h
      rw [hls h, get_delete]

end PathRules

end TeoDB.Storage

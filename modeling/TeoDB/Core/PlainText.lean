import TeoDB.Core.WriterRegistry

/-!
# Plain text forms of identifiers and checkpoints

A codec with the forms that the identifier library and the JSON library print, which is lawful, so
that the assumptions about the libraries are met by the texts they produce.
-/

namespace TeoDB.Core.PlainText

open TeoDB.Core Lib.MachineInt

/-- The last `width` hexadecimal digits of a number, the most significant first. -/
def hexDigits (n : Nat) : Nat → List Char
  | 0 => []
  | width + 1 => Nat.digitChar (n / 16 ^ width % 16) :: hexDigits n width

def hexValue (c : Char) : Nat := if c.isDigit then c.toNat - 48 else c.toNat - 87

def ofHexDigits (digits : List Char) (start : Nat) : Nat :=
  digits.foldl (fun n c => 16 * n + hexValue c) start

def isHexDigit (c : Char) : Bool := c.isDigit || (decide ('a' ≤ c) && decide (c ≤ 'f'))

lemma hexValue_digitChar {d : Nat} (h : d < 16) : hexValue (Nat.digitChar d) = d := by
  revert d
  decide

lemma isHexDigit_digitChar {d : Nat} (h : d < 16) : isHexDigit (Nat.digitChar d) = true := by
  revert d
  decide

lemma ofHexDigits_hexDigits (n w start : Nat) :
    ofHexDigits (hexDigits n w) start = start * 16 ^ w + n % 16 ^ w := by
  induction w generalizing start with
  | zero => simp [hexDigits, ofHexDigits, Nat.mod_one]
  | succ w ih =>
    have hdigit : n / 16 ^ w % 16 < 16 := Nat.mod_lt _ (by decide)
    calc ofHexDigits (hexDigits n (w + 1)) start
        = ofHexDigits (hexDigits n w) (16 * start + n / 16 ^ w % 16) := by
          simp [hexDigits, ofHexDigits, hexValue_digitChar hdigit]
      _ = (16 * start + n / 16 ^ w % 16) * 16 ^ w + n % 16 ^ w := ih _
      _ = start * 16 ^ (w + 1) + n % 16 ^ (w + 1) := by
          rw [Nat.mod_pow_succ]
          ring

lemma length_hexDigits (n w : Nat) : (hexDigits n w).length = w := by
  induction w with
  | zero => rfl
  | succ w ih => simp [hexDigits, ih]

lemma isHexDigit_of_mem {n w : Nat} {c : Char} (h : c ∈ hexDigits n w) : isHexDigit c = true := by
  induction w with
  | zero => cases h
  | succ w ih =>
    rcases List.mem_cons.mp h with rfl | h
    · exact isHexDigit_digitChar (Nat.mod_lt _ (by decide))
    · exact ih h

/-- Hyphens after the eighth, twelfth, sixteenth and twentieth character. -/
def hyphenate (l : List Char) : List Char :=
  l.take 8 ++ '-' :: (l.drop 8).take 4 ++ '-' :: (l.drop 12).take 4 ++
    '-' :: (l.drop 16).take 4 ++ '-' :: l.drop 20

def uuidChars (u : Uuid) : List Char := hyphenate (hexDigits u.toNat 32)

def parseUuid (l : List Char) : Except String Uuid :=
  let digits := l.filter (· ≠ '-')
  if digits.length = 32 ∧ digits.all isHexDigit then .ok (Uuid.ofNat (ofHexDigits digits 0))
  else .error "invalid UUID"

lemma filter_hyphenate {l : List Char} (h : ∀ c ∈ l, c ≠ '-') :
    (hyphenate l).filter (· ≠ '-') = l := by
  have hp : ∀ part : List Char, part ⊆ l → part.filter (· ≠ '-') = part := by
    intro part hsub
    rw [List.filter_eq_self]
    exact fun c hc => decide_eq_true (h c (hsub hc))
  have ht : ∀ a b, ((l.drop a).take b).filter (· ≠ '-') = (l.drop a).take b := fun a b =>
    hp _ fun _ hc => List.drop_subset a l (List.take_subset b _ hc)
  calc (hyphenate l).filter (· ≠ '-')
      = l.take 8 ++ ((l.drop 8).take 4 ++ ((l.drop 12).take 4 ++ ((l.drop 16).take 4 ++
          l.drop 20))) := by
        simp only [hyphenate, List.filter_append, List.filter_cons, ht,
          hp _ (List.take_subset 8 l), hp _ (List.drop_subset 20 l)]
        simp
    _ = l := by
        have h16 : (l.drop 16).take 4 ++ l.drop 20 = l.drop 16 := by
          rw [show l.drop 20 = (l.drop 16).drop 4 by simp, List.take_append_drop]
        have h12 : (l.drop 12).take 4 ++ l.drop 16 = l.drop 12 := by
          rw [show l.drop 16 = (l.drop 12).drop 4 by simp, List.take_append_drop]
        have h8 : (l.drop 8).take 4 ++ l.drop 12 = l.drop 8 := by
          rw [show l.drop 12 = (l.drop 8).drop 4 by simp, List.take_append_drop]
        rw [h16, h12, h8, List.take_append_drop]

lemma filter_uuidChars (u : Uuid) : (uuidChars u).filter (· ≠ '-') = hexDigits u.toNat 32 := by
  apply filter_hyphenate
  rintro c hc rfl
  exact absurd (isHexDigit_of_mem hc) (by decide)

lemma parseUuid_uuidChars (u : Uuid) : parseUuid (uuidChars u) = .ok u := by
  have hhex : ∀ c ∈ hexDigits u.toNat 32, isHexDigit c = true := fun c hc => isHexDigit_of_mem hc
  have hv : Uuid.ofNat (ofHexDigits (hexDigits u.toNat 32) 0) = u := by
    have hlt : u.toNat < 16 ^ 32 := lt_of_lt_of_le u.bits.isLt (by norm_num)
    rw [ofHexDigits_hexDigits, Nat.mod_eq_of_lt hlt]
    apply Uuid.toNat_injective
    simp [Uuid.ofNat, Uuid.toNat]
  simp only [parseUuid, filter_uuidChars, length_hexDigits, hv, true_and]
  rw [if_pos (List.all_eq_true.mpr hhex)]

lemma length_uuidChars (u : Uuid) : (uuidChars u).length = 36 := by
  simp [uuidChars, hyphenate, length_hexDigits]

/-- The rest of a text after an expected beginning. -/
def readLiteral (literal l : List Char) : Option (List Char) :=
  if literal.isPrefixOf l then some (l.drop literal.length) else none

/-- A decimal number and the rest of the text. -/
def readNumber (l : List Char) : Option (Nat × List Char) :=
  match l.takeWhile Char.isDigit with
  | [] => none
  | digits => some (Nat.ofDigitChars 10 digits 0, l.dropWhile Char.isDigit)

@[simp] lemma readLiteral_append (lit rest : List Char) :
    readLiteral lit (lit ++ rest) = some rest := by
  simp [readLiteral]

/-- A printed number is read back up to the first character that is no digit. -/
theorem readNumber_append {n : Nat} {c : Char} {rest : List Char} (hc : c.isDigit = false) :
    readNumber (Nat.toDigits 10 n ++ c :: rest) = some (n, c :: rest) := by
  have hdg : ∀ d ∈ Nat.toDigits 10 n, d.isDigit = true := fun d hd =>
    Nat.isDigit_of_mem_toDigits (by decide) (by decide) hd
  have ht : (Nat.toDigits 10 n ++ c :: rest).takeWhile Char.isDigit = Nat.toDigits 10 n := by
    simp [List.takeWhile_append_of_pos hdg, hc]
  have hdrop : (Nat.toDigits 10 n ++ c :: rest).dropWhile Char.isDigit = c :: rest := by
    simp [List.dropWhile_append_of_pos hdg, hc]
  unfold readNumber
  rw [ht, hdrop]
  split
  · rename_i hnil
    exact absurd hnil (by simp)
  · rw [Nat.ofDigitChars_toDigits (by decide) (by decide)]

def versionKey : List Char := "\x7b\"version\":".toList

def epochKey : List Char := "\"epoch\":".toList

def generationKey : List Char := "\"generation\":".toList

def commitIdKey : List Char := "\"commit_id\":\"".toList

def committedAtKey : List Char := "\"committed_at_ms\":".toList

def checkpointChars (c : WriterCheckpoint) : List Char :=
  versionKey ++ (Nat.toDigits 10 c.version ++ ',' ::
    (epochKey ++ (Nat.toDigits 10 c.epoch.value ++ ',' ::
      (generationKey ++ (Nat.toDigits 10 c.generation ++ ',' ::
        (commitIdKey ++ (uuidChars c.commitId.uuid ++ '"' :: ',' ::
          (committedAtKey ++ (Nat.toDigits 10 c.committedAtMs.toNat ++ ['\x7d'])))))))))

def parseCheckpoint (l : List Char) : Option WriterCheckpoint := do
  let l ← readLiteral versionKey l
  let (version, l) ← readNumber l
  let l ← readLiteral (',' :: epochKey) l
  let (epoch, l) ← readNumber l
  let l ← readLiteral (',' :: generationKey) l
  let (generation, l) ← readNumber l
  let l ← readLiteral (',' :: commitIdKey) l
  let uuid ← (parseUuid (l.take 36)).toOption
  let l ← readLiteral ('"' :: ',' :: committedAtKey) (l.drop 36)
  let (committedAtMs, l) ← readNumber l
  if l = ['\x7d'] then some ⟨version, ⟨epoch⟩, generation, ⟨uuid⟩, committedAtMs⟩ else none

lemma readLiteral_cons (c : Char) (lit rest : List Char) :
    readLiteral (c :: lit) (c :: (lit ++ rest)) = some rest :=
  readLiteral_append (c :: lit) rest

lemma parseCheckpoint_checkpointChars {c : WriterCheckpoint} (h : 0 ≤ c.committedAtMs) :
    parseCheckpoint (checkpointChars c) = some c := by
  have ht : ∀ rest, (uuidChars c.commitId.uuid ++ rest).take 36 = uuidChars c.commitId.uuid :=
    fun rest => by
      rw [← length_uuidChars c.commitId.uuid, List.take_left]
  have hd : ∀ rest, (uuidChars c.commitId.uuid ++ rest).drop 36 = rest := fun rest => by
    rw [← length_uuidChars c.commitId.uuid, List.drop_left]
  have hclose : readLiteral ('"' :: ',' :: committedAtKey) ('"' :: ',' ::
      (committedAtKey ++ (Nat.toDigits 10 c.committedAtMs.toNat ++ ['\x7d']))) =
        some (Nat.toDigits 10 c.committedAtMs.toNat ++ ['\x7d']) :=
    readLiteral_append ('"' :: ',' :: committedAtKey) _
  have hcomma : Char.isDigit ',' = false := by decide
  have hbrace : Char.isDigit '\x7d' = false := by decide
  have hms : (c.committedAtMs.toNat : Int) = c.committedAtMs := Int.toNat_of_nonneg h
  simp only [parseCheckpoint, checkpointChars, readLiteral_append, readLiteral_cons,
    readNumber_append hcomma, readNumber_append hbrace, ht, hd, hclose,
    parseUuid_uuidChars, Except.toOption, Option.bind_eq_bind, Option.bind_some, if_true, hms]

instance (c : WriterCheckpoint) : Decidable c.Fits :=
  decidable_of_iff (c.version < 2 ^ 16 ∧ c.epoch.value ≤ u64Max ∧ c.generation ≤ u64Max ∧
      0 ≤ c.committedAtMs ∧ c.committedAtMs ≤ i64Max)
    ⟨fun ⟨h1, h2, h3, h4, h5⟩ => ⟨h1, h2, h3, h4, h5⟩,
      fun ⟨h1, h2, h3, h4, h5⟩ => ⟨h1, h2, h3, h4, h5⟩⟩

def checkpointToJson (c : WriterCheckpoint) : Except String String :=
  if c.Fits then .ok (String.ofList (checkpointChars c)) else .error "number out of range"

def checkpointFromJson (text : String) : Except String WriterCheckpoint :=
  match parseCheckpoint text.toList with
  | none => .error "invalid checkpoint"
  | some c => if c.Fits then .ok c else .error "number out of range"

def codec : TextCodec where
  uuidToString u := String.ofList (uuidChars u)
  uuidParseStr text := parseUuid text.toList
  checkpointToJson := checkpointToJson
  checkpointFromJson := checkpointFromJson
  fromJson_le := by
    intro text c h
    unfold checkpointFromJson at h
    split at h
    · cases h
    · split_ifs at h with hfits
      cases h
      exact ⟨hfits.epoch_le, hfits.generation_le⟩

lemma utf8ByteSize_ofList_le (l : List Char) : (String.ofList l).utf8ByteSize ≤ 4 * l.length := by
  induction l with
  | nil => decide
  | cons c rest ih =>
    have hc := c.utf8Size_le_four
    rw [String.utf8ByteSize_ofList] at ih ⊢
    rw [String.utf8Len_cons, List.length_cons]
    omega

lemma length_checkpointChars_le {c : WriterCheckpoint} (h : c.Fits) :
    (checkpointChars c).length ≤ 400 := by
  have hversion := Nat.toDigits_length 10 c.version 5 (by decide)
    (lt_of_lt_of_le h.version_lt (by decide))
  have hepoch := Nat.toDigits_length 10 c.epoch.value 20 (by decide)
    (lt_of_le_of_lt h.epoch_le (by decide))
  have hgen := Nat.toDigits_length 10 c.generation 20 (by decide)
    (lt_of_le_of_lt h.generation_le (by decide))
  have hms := Nat.toDigits_length 10 c.committedAtMs.toNat 20 (by decide) (by
    have hle := h.committedAtMs_le
    simp only [i64Max] at hle
    omega)
  have hkeys : versionKey.length + epochKey.length + generationKey.length + commitIdKey.length +
      committedAtKey.length ≤ 100 := by decide
  simp only [checkpointChars, List.length_append, List.length_cons, List.length_nil,
    length_uuidChars]
  omega

lemma codec_lawful : codec.Lawful where
  parse_toString u := by
    simpa [codec] using parseUuid_uuidChars u
  toJson_total c h := ⟨_, if_pos h⟩
  fromJson_toJson c text h := by
    change checkpointToJson c = _ at h
    unfold checkpointToJson at h
    split_ifs at h with hf
    cases h
    simp [codec, checkpointFromJson, parseCheckpoint_checkpointChars hf.committedAtMs_nonneg, hf]
  toJson_size c text h := by
    change checkpointToJson c = _ at h
    unfold checkpointToJson at h
    split_ifs at h with hf
    cases h
    have hlength := length_checkpointChars_le hf
    have hbytes := utf8ByteSize_ofList_le (checkpointChars c)
    simp only [maxWriterCheckpointValueBytes]
    omega

end TeoDB.Core.PlainText

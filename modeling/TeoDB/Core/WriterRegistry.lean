import TeoDB.Core.WriteProtocol

/-!
# The writer registry inside table properties

The registry is the set of properties whose keys begin with the registry's prefix. Validation and
lookups are described for a registry that is extended by one checkpoint.
-/

namespace TeoDB.Core

open Lib Lib.MachineInt

/-- The largest signed 64-bit value. -/
def i64Max : Int := 2 ^ 63 - 1

/-- The numbers of a checkpoint are within their machine types. -/
structure WriterCheckpoint.Fits (c : WriterCheckpoint) : Prop where
  version_lt : c.version < 2 ^ 16
  epoch_le : c.epoch.value ≤ u64Max
  generation_le : c.generation ≤ u64Max
  committedAtMs_nonneg : 0 ≤ c.committedAtMs
  committedAtMs_le : c.committedAtMs ≤ i64Max

/-- The round trips of the libraries, and that a checkpoint stays within the bytes read back. -/
structure TextCodec.Lawful (codec : TextCodec) : Prop where
  parse_toString : ∀ u, codec.uuidParseStr (codec.uuidToString u) = .ok u
  toJson_total : ∀ c : WriterCheckpoint, c.Fits → ∃ text, codec.checkpointToJson c = .ok text
  fromJson_toJson : ∀ c text, codec.checkpointToJson c = .ok text →
    codec.checkpointFromJson text = .ok c
  toJson_size : ∀ c text, codec.checkpointToJson c = .ok text →
    text.utf8ByteSize ≤ maxWriterCheckpointValueBytes

lemma TextCodec.Lawful.toString_injective {codec : TextCodec} (h : codec.Lawful) {u v : Uuid}
    (heq : codec.uuidToString u = codec.uuidToString v) : u = v := by
  have hu := h.parse_toString u
  rw [heq, h.parse_toString v] at hu
  exact (Except.ok.inj hu).symm

lemma stripStart_eq_some {start text suf : String} :
    stripStart start text = some suf ↔ text = start ++ suf := by
  constructor
  · intro h
    unfold stripStart at h
    split at h
    · rename_i hst
      obtain ⟨rest, hr⟩ := List.isPrefixOf_iff_prefix.mp hst
      have hsf := Option.some.inj h
      rw [← String.toList_inj, ← hsf]
      simp [← hr]
    · cases h
  · rintro rfl
    simp [stripStart]

section

variable {codec : TextCodec}

lemma writerCheckpointKey_inj (h : codec.Lawful) {v w : WriterId}
    (heq : writerCheckpointKey codec v = writerCheckpointKey codec w) : v = w := by
  have ht : codec.uuidToString v.uuid = codec.uuidToString w.uuid := by
    simpa [writerCheckpointKey] using heq
  cases v
  cases w
  exact congrArg WriterId.mk (h.toString_injective ht)

/-- What validation asks of one property. -/
def ValidEntry (codec : TextCodec) (table : TableIdent) (e : String × String) : Prop :=
  ∀ suffix, stripStart writerCheckpointPrefix e.1 = some suffix →
    validateWriterCheckpointEntry codec table e.1 suffix e.2 = .ok ()

variable {tbl : TableIdent}

lemma validateWriterCheckpointEntries_ok_iff {l : List (String × String)} :
    (∃ n, validateWriterCheckpointEntries codec tbl l = .ok n) ↔
      ∀ e ∈ l, ValidEntry codec tbl e := by
  induction l with
  | nil => simp [validateWriterCheckpointEntries]
  | cons e rest ih =>
    obtain ⟨key, v⟩ := e
    rw [List.forall_mem_cons, ← ih]
    cases hstr : stripStart writerCheckpointPrefix key with
    | none => simp [validateWriterCheckpointEntries, ValidEntry, hstr]
    | some suf =>
      cases hen : validateWriterCheckpointEntry codec tbl key suf v with
      | error err => simp [validateWriterCheckpointEntries, ValidEntry, hstr, hen]
      | ok _ =>
        cases hr : validateWriterCheckpointEntries codec tbl rest with
        | error err =>
          simp [validateWriterCheckpointEntries, hstr, hen, hr, Except.map]
        | ok n =>
          simp [validateWriterCheckpointEntries, ValidEntry, hstr, hen, hr, Except.map]

variable {props : Properties}

/-- Validation accepts a registry exactly if it accepts every entry. -/
theorem validateWriterCheckpoints_ok_iff :
    (∃ n, validateWriterCheckpoints codec tbl props = .ok n) ↔
      ∀ e ∈ props.entries, ValidEntry codec tbl e :=
  validateWriterCheckpointEntries_ok_iff

variable {w : WriterId}

/-- The entry of a writer is valid exactly if its value decodes. -/
theorem validEntry_writerCheckpointKey (h : codec.Lawful) {v : String} (hw : w.uuid.isNil = false) :
    ValidEntry codec tbl (writerCheckpointKey codec w, v) ↔
      ∃ c, WriterCheckpoint.decode codec tbl w v = .ok c := by
  have hstrip : stripStart writerCheckpointPrefix (writerCheckpointKey codec w) =
      some (codec.uuidToString w.uuid) := stripStart_eq_some.mpr rfl
  have hen : validateWriterCheckpointEntry codec tbl (writerCheckpointKey codec w)
      (codec.uuidToString w.uuid) v = (WriterCheckpoint.decode codec tbl w v).map fun _ => () := by
    simp [validateWriterCheckpointEntry, h.parse_toString, hw]
  simp only [ValidEntry, hstrip, Option.some.injEq, forall_eq', hen]
  cases WriterCheckpoint.decode codec tbl w v with
  | error e => simp [Except.map]
  | ok c => simp [Except.map]

lemma parseWriterCheckpoint_of_valid (h : codec.Lawful) (hw : w.uuid.isNil = false)
    (hvd : ∀ e ∈ props.entries, ValidEntry codec tbl e) :
    ∃ own, parseWriterCheckpoint codec tbl props w = .ok own := by
  unfold parseWriterCheckpoint
  cases hf : props.find? (writerCheckpointKey codec w) with
  | none => exact ⟨none, rfl⟩
  | some value =>
    have hmem := (props.find?_eq_some_iff _ _).mp hf
    obtain ⟨c, hc⟩ := (validEntry_writerCheckpointKey h hw).mp (hvd _ hmem)
    exact ⟨some c, by simp [hc, Except.map]⟩

/-- A lookup that succeeds does so under every table name, which only errors show. -/
theorem parseWriterCheckpoint_table {own : Option WriterCheckpoint}
    (h : parseWriterCheckpoint codec tbl props w = .ok own) (o : TableIdent) :
    parseWriterCheckpoint codec o props w = .ok own := by
  cases own with
  | none =>
    unfold parseWriterCheckpoint at h ⊢
    split at h
    · rfl
    · rename_i v _
      cases hdec : WriterCheckpoint.decode codec tbl w v with
      | error e =>
        rw [hdec] at h
        cases h
      | ok c =>
        rw [hdec] at h
        cases h
  | some c =>
    rw [parseWriterCheckpoint_eq_some] at h ⊢
    obtain ⟨v, hf, hdec⟩ := h
    exact ⟨v, hf, WriterCheckpoint.decode_eq_ok.mpr (WriterCheckpoint.decode_eq_ok.mp hdec)⟩

variable {tb : TableIdent} {c : WriterCheckpoint} {text : String}

lemma WriterCheckpoint.decode_encode (h : codec.Lawful) (henc : c.encode codec = .ok text)
    (hg : c.malformed (codec.uuidToString w.uuid) = none) :
    WriterCheckpoint.decode codec tb w text = .ok c := by
  have hj : codec.checkpointToJson c = .ok text := by
    unfold encode at henc
    split at henc
    · rename_i found hfound
      exact hfound.trans (congrArg Except.ok (Except.ok.inj henc))
    · cases henc
  exact decode_eq_ok.mpr ⟨h.toJson_size c text hj, h.fromJson_toJson c text hj, hg⟩

/-- The lookups of a registry after one checkpoint has been written. -/
theorem parseWriterCheckpoint_insert (h : codec.Lawful)
    (hdec : WriterCheckpoint.decode codec tbl w text = .ok c) (v : WriterId) :
    parseWriterCheckpoint codec tbl (props.insert (writerCheckpointKey codec w) text) v =
      if v = w then .ok (some c) else parseWriterCheckpoint codec tbl props v := by
  unfold parseWriterCheckpoint
  rw [OrdMap.find?_insert]
  by_cases hv : v = w
  · subst hv
    simp [hdec, Except.map]
  · rw [if_neg fun heq => hv (writerCheckpointKey_inj h heq), if_neg hv]

/-- Writing a checkpoint that decodes keeps a registry valid. -/
theorem validEntries_insert (h : codec.Lawful) (hw : w.uuid.isNil = false)
    (hdec : WriterCheckpoint.decode codec tbl w text = .ok c)
    (hvd : ∀ e ∈ props.entries, ValidEntry codec tbl e) :
    ∀ e ∈ (props.insert (writerCheckpointKey codec w) text).entries, ValidEntry codec tbl e := by
  intro e he
  rcases (props.mem_entries_insert _ _ e).mp he with rfl | ⟨_, he⟩
  · exact (validEntry_writerCheckpointKey h hw).mpr ⟨c, hdec⟩
  · exact hvd e he

variable {idn : AppendCommitIdentity} {sid : Int}

/-- A snapshot matches an identity exactly if it carries all its properties. -/
theorem snapshotMatchesAppendIdentity_true {tu : Uuid}
    (hall : ∀ p ∈ appendSnapshotIdentityProperties codec tu idn, props.find? p.1 = some p.2) :
    snapshotMatchesAppendIdentity codec tb tu idn sid props = .ok true := by
  have hcom : props.find? commitIdProperty = some (codec.uuidToString idn.commitId.uuid) :=
    hall (commitIdProperty, codec.uuidToString idn.commitId.uuid)
      (by simp [appendSnapshotIdentityProperties])
  have hn : (appendSnapshotIdentityProperties codec tu idn).find?
      (fun p => props.find? p.1 ≠ some p.2) = none := by
    rw [List.find?_eq_none]
    intro p hp
    simp [hall p hp]
  simp only [snapshotMatchesAppendIdentity, hcom, ne_eq, not_true_eq_false, if_false] at hn ⊢
  rw [hn]

/-- Another commit identifier is an ordinary non-match. -/
theorem snapshotMatchesAppendIdentity_false {tu : Uuid}
    (hot : props.find? commitIdProperty ≠ some (codec.uuidToString idn.commitId.uuid)) :
    snapshotMatchesAppendIdentity codec tb tu idn sid props = .ok false := by
  simp only [snapshotMatchesAppendIdentity, if_pos hot]

lemma map_eq_error {ε α β : Type*} {f : α → β} {x : Except ε α} {e : ε} :
    x.map f = .error e ↔ x = .error e := by
  cases x <;> simp [Except.map]

variable {e : TeoDBError}

/-- Every error of the registry names its table and is a corruption. -/
theorem WriterCheckpoint.decode_error {v : String}
    (h : WriterCheckpoint.decode codec tbl w v = .error e) :
    ∃ msg, e = .metadataCorruption tbl msg := by
  simp only [WriterCheckpoint.decode] at h
  split_ifs at h with hsize
  · exact ⟨_, (Except.error.inj h).symm⟩
  · split at h
    · exact ⟨_, (Except.error.inj h).symm⟩
    · split at h
      · exact ⟨_, (Except.error.inj h).symm⟩
      · cases h

lemma parseWriterCheckpoint_error (h : parseWriterCheckpoint codec tbl props w = .error e) :
    ∃ msg, e = .metadataCorruption tbl msg := by
  unfold parseWriterCheckpoint at h
  split at h
  · cases h
  · exact WriterCheckpoint.decode_error (map_eq_error.mp h)

lemma validateWriterCheckpointEntry_error {key suf v : String}
    (h : validateWriterCheckpointEntry codec tbl key suf v = .error e) :
    ∃ msg, e = .metadataCorruption tbl msg := by
  unfold validateWriterCheckpointEntry at h
  split at h
  · exact ⟨_, (Except.error.inj h).symm⟩
  · split_ifs at h with hcan
    · exact ⟨_, (Except.error.inj h).symm⟩
    · exact WriterCheckpoint.decode_error (map_eq_error.mp h)

lemma validateWriterCheckpointEntries_error {l : List (String × String)} {err : TeoDBError}
    (h : validateWriterCheckpointEntries codec tbl l = .error err) :
    ∃ msg, err = .metadataCorruption tbl msg := by
  induction l with
  | nil => cases h
  | cons e rest ih =>
    simp only [validateWriterCheckpointEntries] at h
    split at h
    · exact ih h
    · split at h
      · rename_i hen
        exact Except.error.inj h ▸ validateWriterCheckpointEntry_error hen
      · exact ih (map_eq_error.mp h)

lemma snapshotMatchesAppendIdentity_error {uuid : Uuid}
    (h : snapshotMatchesAppendIdentity codec tbl uuid idn sid props = .error e) :
    ∃ msg, e = .metadataCorruption tbl msg := by
  simp only [snapshotMatchesAppendIdentity] at h
  split_ifs at h with hcommit
  split at h
  · exact ⟨_, (Except.error.inj h).symm⟩
  · cases h

end

end TeoDB.Core

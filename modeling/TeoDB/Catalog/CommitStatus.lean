import TeoDB.Catalog.AppendStatus
import TeoDB.Catalog.ExactlyOnce

/-!
# The status of an append is exact

The status check and the guard of an attempt read the same metadata. Both reduce to one condition,
that it is well formed, and to one answer, whether the exact identity was found.

A table lives on under appends of any writer, replaces and property updates. None
of them takes a snapshot out of the history or reuses its commit identifier, so an
append that was published is found in every later state.

## Implementation notes

Replaces are those of the compactor, which write no commit identifier. Property updates are those
of the compaction lock and of the query pins, whose keys lie outside the writer registry.
-/

namespace TeoDB.Catalog

open TeoDB.Core Lib Lib.MachineInt Storage.Wal

section

variable {F L P : Type} {env : CatalogEnv F L P} {request : CommitAppend F}
  {metadata : TableMetadata} {layout : L}

/-- All that the guard and the status check read is well formed, and says whether the identity is in
the history or in the checkpoint. -/
structure Reads (env : CatalogEnv F L P) (request : CommitAppend F) (metadata : TableMetadata)
    (count : Nat) (own : Option WriterCheckpoint) (inHistory inCheckpoint : Bool) : Prop where
  registry : validateWriterCheckpoints env.codec request.table metadata.properties = .ok count
  own_eq : parseWriterCheckpoint env.codec request.table metadata.properties
    request.identity.writerId = .ok own
  history : exactSnapshot env request metadata.snapshots = .ok inHistory
  checkpoint : exactCheckpoint env request own = .ok inCheckpoint

lemma exactSnapshot_error {sns : List Snapshot} {e : TeoDBError}
    (h : exactSnapshot env request sns = .error e) :
    ∃ msg, e = .metadataCorruption request.table msg := by
  induction sns with
  | nil => cases h
  | cons s rest ih =>
    simp only [exactSnapshot] at h
    split at h
    · rename_i hmt
      exact Except.error.inj h ▸ snapshotMatchesAppendIdentity_error hmt
    · exact ih (map_eq_error.mp h)

variable (env) in
/-- Either everything can be read, or both procedures report a corruption. -/
theorem reads_or_corrupt (hidn : request.identity.validate request.table request.tableUuid = .ok ())
    (hu : metadata.tableUuid = request.tableUuid) :
    (∃ count own inHistory inCheckpoint, Reads env request metadata count own inHistory
      inCheckpoint) ∨ (∀ layout, ∃ msg, resolveAppendStatus env request (.ok (metadata, layout)) =
      .error (.metadataCorruption request.table msg)) ∧
    ∃ msg, validate env request metadata = .error (.metadataCorruption msg) := by
  cases hreg : validateWriterCheckpoints env.codec request.table metadata.properties with
  | error e =>
    obtain ⟨msg, rfl⟩ := validateWriterCheckpointEntries_error hreg
    refine Or.inr ⟨fun layout => ?_, by simp [validate, hidn, hu, hreg]⟩
    cases hhist : exactSnapshot env request metadata.snapshots with
    | error e' =>
      obtain ⟨message', rfl⟩ := exactSnapshot_error hhist
      simp [resolveAppendStatus, hidn, hu, hhist]
    | ok inHistory => simp [resolveAppendStatus, hidn, hu, hhist, hreg]
  | ok count =>
    cases hhist : exactSnapshot env request metadata.snapshots with
    | error e =>
      obtain ⟨msg, rfl⟩ := exactSnapshot_error hhist
      refine Or.inr ⟨by simp [resolveAppendStatus, hidn, hu, hhist], ?_⟩
      cases hown : parseWriterCheckpoint env.codec request.table metadata.properties
          request.identity.writerId with
      | error e' => simp [validate, hidn, hu, hreg, hown]
      | ok own => simp [validate, hidn, hu, hreg, hown, hhist]
    | ok inHistory =>
      cases hown : parseWriterCheckpoint env.codec request.table metadata.properties
          request.identity.writerId with
      | error e =>
        obtain ⟨msg, rfl⟩ := parseWriterCheckpoint_error hown
        exact Or.inr ⟨by simp [resolveAppendStatus, hidn, hu, hhist, hreg,
          hown], by simp [validate, hidn, hu, hreg, hown]⟩
      | ok own =>
        cases hcp : exactCheckpoint env request own with
        | error msg =>
          exact Or.inr ⟨by simp [resolveAppendStatus, hidn, hu, hhist,
            hreg, hown, hcp], by simp [validate, hidn, hu, hreg,
            hown, hhist, hcp]⟩
        | ok inCheckpoint =>
          exact Or.inl ⟨count, own, inHistory, inCheckpoint, hreg, hown, hhist, hcp⟩

section

variable {count : Nat} {own : Option WriterCheckpoint} {inHistory inCheckpoint : Bool}

lemma continuesAbove_error {rejection : GuardRejection}
    (h : continuesAbove request own = .error rejection) :
    (∃ cur, rejection = .staleWriterEpoch cur) ∨ ∃ msg, rejection = .protocolViolation msg := by
  cases own with
  | none => cases h
  | some cp =>
    simp only [continuesAbove] at h
    split_ifs at h with hepoch hoverlap
    · exact Or.inl ⟨_, (Except.error.inj h).symm⟩
    · exact Or.inr ⟨_, (Except.error.inj h).symm⟩

variable (h : Reads env request metadata count own inHistory inCheckpoint)
  (hidn : request.identity.validate request.table request.tableUuid = .ok ())
  (hu : metadata.tableUuid = request.tableUuid)

include h hidn hu

lemma Reads.resolveAppendStatus_eq
    (hdom : env.icebergToTeoMetadata request.table layout = .ok ()) :
    resolveAppendStatus env request (.ok (metadata, layout)) =
      .ok (if inHistory || inCheckpoint then .committed metadata else .notCommitted) := by
  simp only [resolveAppendStatus, hidn, hu, h.history, h.registry, h.own_eq,
    h.checkpoint, hdom, Except.map, ne_eq, not_true_eq_false, if_false]
  split_ifs <;> rfl

/-- A guard that reads everything rejects only a commit found, an old epoch, an overlap or a full
registry. -/
theorem Reads.validate_error {rejection : GuardRejection}
    (hrj : validate env request metadata = .error rejection) :
    (inHistory || inCheckpoint) = true ∧ rejection = .alreadyCommitted metadata ∨
      (inHistory || inCheckpoint) = false ∧ (rejection = .writerRegistryFull ∨
        (∃ cur, rejection = .staleWriterEpoch cur) ∨
        ∃ msg, rejection = .protocolViolation msg) := by
  simp only [validate, hidn, hu, h.registry, h.own_eq, h.history, h.checkpoint, ne_eq,
    not_true_eq_false, if_false] at hrj
  split_ifs at hrj with hfnd hfull
  · exact Or.inl ⟨hfnd, (Except.error.inj hrj).symm⟩
  · exact Or.inr ⟨eq_false_of_ne_true hfnd, Or.inl (Except.error.inj hrj).symm⟩
  · exact Or.inr ⟨eq_false_of_ne_true hfnd, Or.inr (continuesAbove_error hrj)⟩

lemma Reads.validate_of_found (hfound : (inHistory || inCheckpoint) = true) :
    validate env request metadata = .error (.alreadyCommitted metadata) := by
  simp only [validate, hidn, hu, h.registry, h.own_eq, h.history, h.checkpoint, ne_eq,
    not_true_eq_false, if_false, if_pos hfound]

end

/-- On metadata of its own incarnation the status check and the guard agree. -/
structure Agrees (env : CatalogEnv F L P) (request : CommitAppend F) (metadata : TableMetadata)
    (layout : L) : Prop where
  committed : (∃ reported, resolveAppendStatus env request (.ok (metadata, layout)) =
      .ok (.committed reported)) ↔
    ∃ found, validate env request metadata = .error (.alreadyCommitted found)
  incarnation : ∀ actual, resolveAppendStatus env request (.ok (metadata, layout)) =
      .error (.tableIncarnationMismatch request.table request.tableUuid actual) ↔
    validate env request metadata = .error (.tableIncarnationMismatch actual)
  corruption : (∃ message, resolveAppendStatus env request (.ok (metadata, layout)) =
      .error (.metadataCorruption request.table message)) ↔
    ∃ message, validate env request metadata = .error (.metadataCorruption message)

lemma agrees (hidn : request.identity.validate request.table request.tableUuid = .ok ())
    (hdom : env.icebergToTeoMetadata request.table layout = .ok ()) :
    Agrees env request metadata layout := by
  by_cases hu : metadata.tableUuid = request.tableUuid
  · obtain ⟨count, own, inHistory, inCheckpoint, h⟩ | ⟨hcor, msg, hgua⟩ :=
      reads_or_corrupt env hidn hu
    · have hsta := h.resolveAppendStatus_eq hidn hu hdom
      have hgua := fun r (hr : validate env request metadata = .error r) =>
        h.validate_error hidn hu hr
      cases hfnd : (inHistory || inCheckpoint) with
      | true =>
        have hcom := h.validate_of_found hidn hu hfnd
        rw [hfnd] at hsta
        constructor <;> simp [hsta, hcom]
      | false =>
        rw [hfnd] at hsta hgua
        constructor
        · constructor
          · simp [hsta]
          · rintro ⟨found, hrj⟩
            simpa using hgua _ hrj
        · intro actual
          constructor
          · simp [hsta]
          · intro hrj
            simpa using hgua _ hrj
        · constructor
          · simp [hsta]
          · rintro ⟨msg, hrj⟩
            simpa using hgua _ hrj
    · obtain ⟨message', hsta⟩ := hcor layout
      constructor <;> simp [hsta, hgua]
  · have hsta : resolveAppendStatus env request (.ok (metadata, layout)) =
        .error (.tableIncarnationMismatch request.table request.tableUuid metadata.tableUuid) := by
      simp [resolveAppendStatus, hidn, hu]
    have hgua : validate env request metadata =
        .error (.tableIncarnationMismatch metadata.tableUuid) := by
      simp [validate, hidn, hu]
    constructor <;> simp [hsta, hgua]

/-- An admitted attempt has read everything and not found its identity. -/
theorem reads_of_validate (h : validate env request metadata = .ok ()) :
    ∃ count own, Reads env request metadata count own false false := by
  have hadm := admitted_of_validate h
  obtain ⟨count, own, inHistory, inCheckpoint, hrea⟩ | ⟨_, message, hcor⟩ :=
    reads_or_corrupt env hadm.identity_valid hadm.tableUuid_eq
  · cases hfnd : (inHistory || inCheckpoint) with
    | true =>
      rw [hrea.validate_of_found hadm.identity_valid hadm.tableUuid_eq hfnd] at h
      cases h
    | false =>
      obtain ⟨rfl, rfl⟩ := Bool.or_eq_false_iff.mp hfnd
      exact ⟨count, own, hrea⟩
  · rw [h] at hcor
    cases hcor

end

def propOwner : String := "teodb.compaction.owner"

def propLockTs : String := "teodb.compaction.lock_ts"

def pinPrefix : String := "teodb.pin."

/-- The table properties that TeoDB updates outside of appends. -/
inductive PropertyKey where
  | owner
  | lockTs
  | pin (queryId : String)
deriving DecidableEq

def PropertyKey.text : PropertyKey → String
  | owner => propOwner
  | lockTs => propLockTs
  | pin queryId => pinPrefix ++ queryId

structure PropertiesUpdate where
  updates : List (PropertyKey × String)
  removals : List PropertyKey

/-- What `update_table_properties` asks of the current values. -/
def matchesExpected (expected : List (PropertyKey × String)) (properties : Properties) : Bool :=
  expected.all fun e => (properties.find? e.1.text).getD "" == e.2

def PropertiesUpdate.applied (u : PropertiesUpdate) (m : TableMetadata) : TableMetadata :=
  { m with
    properties := (u.removals.map PropertyKey.text).foldl OrdMap.erase
      (m.properties.insertAll (u.updates.map fun e => (e.1.text, e.2))) }

/-- A replace by the compactor, with the superseded files in their serialised form. -/
structure CommitReplace where
  baseSnapshotId : Int
  removedDataFiles : String

def removedDataFilesProp : String := "teodb.removed_data_files"

def CommitReplace.summary (r : CommitReplace) : Properties :=
  OrdMap.empty.insertAll [("teodb.op", "compaction"), (removedDataFilesProp, r.removedDataFiles)]

/-- The update of a replace, sent for the metadata that its attempt loaded. -/
structure ReplaceUpdate where
  requireUuid : Uuid
  requireMain : Option Int
  snapshot : Snapshot

def CommitReplace.update (r : CommitReplace) (base : TableMetadata) (snapshotId : Int) :
    ReplaceUpdate where
  requireUuid := base.tableUuid
  requireMain := base.currentSnapshotId
  snapshot := ⟨snapshotId, base.currentSnapshotId, r.summary⟩

def ReplaceUpdate.applied (u : ReplaceUpdate) (m : TableMetadata) : TableMetadata :=
  { m with
    currentSnapshotId := some u.snapshot.snapshotId
    snapshots := m.snapshots ++ [u.snapshot] }

def ReplaceUpdate.apply (u : ReplaceUpdate) (m : TableMetadata) : Option TableMetadata :=
  if m.tableUuid = u.requireUuid ∧ m.currentSnapshotId = u.requireMain then some (u.applied m)
  else none

/-- A message to the catalog. -/
inductive TableUpdate (F : Type) where
  | append (request : CommitAppend F) (update : AppendUpdate)
  | replace (update : ReplaceUpdate)
  | properties (update : PropertiesUpdate)

/-- One table with the replaces checked, the messages sent and the appends published. -/
structure LifeState (F L : Type) where
  metadata : TableMetadata
  layout : L
  replaces : List CommitReplace
  wire : List (TableUpdate F)
  published : List (CommitAppend F)

inductive LifeOp (F : Type) where
  | attempt (request : CommitAppend F) (nowMs snapshotId : Int)
  | checkReplace (request : CommitReplace)
  | attemptReplace (index : Nat) (snapshotId : Int)
  | updateProperties (expected : List (PropertyKey × String)) (update : PropertiesUpdate)
  | deliver (message : Nat)

section

variable {F L P : Type} (env : CatalogEnv F L P) (ident : TableIdent)

namespace LifeState

/-- One attempt of an append by any writer. -/
def attempt (s : LifeState F L) (request : CommitAppend F) (nowMs snapshotId : Int) :
    Option (LifeState F L) :=
  match buildAppendTransaction env request s.layout nowMs, validate env request s.metadata with
  | .ok tx, .ok _ =>
    if request.table = ident ∧ snapshotId ∉ s.metadata.snapshots.map Snapshot.snapshotId then
      some { s with wire := s.wire ++ [.append request (tx.update s.metadata snapshotId)] }
    else none
  | _, _ => none

/-- One attempt of a replace, perhaps rebased after its check. -/
def attemptReplace (s : LifeState F L) (index : Nat) (snapshotId : Int) :
    Option (LifeState F L) :=
  match s.replaces[index]? with
  | none => none
  | some request =>
    if snapshotId ∉ s.metadata.snapshots.map Snapshot.snapshotId then
      some { s with wire := s.wire ++ [.replace (request.update s.metadata snapshotId)] }
    else none

/-- A message reaches the catalog, which applies it if its requirements hold. -/
def deliver (s : LifeState F L) (message : Nat) : Option (LifeState F L) :=
  match s.wire[message]? with
  | none => none
  | some (.append request update) =>
    match update.apply s.metadata with
    | none => some s
    | some metadata =>
      some { s with metadata := metadata, published := s.published ++ [request] }
  | some (.replace update) =>
    match update.apply s.metadata with
    | none => some s
    | some metadata => some { s with metadata := metadata }
  | some (.properties update) => some { s with metadata := update.applied s.metadata }

def next (s : LifeState F L) : LifeOp F → Option (LifeState F L)
  | .attempt request nowMs snapshotId => s.attempt env ident request nowMs snapshotId
  | .checkReplace request =>
    if s.metadata.currentSnapshotId = some request.baseSnapshotId then
      some { s with replaces := s.replaces ++ [request] }
    else none
  | .attemptReplace index snapshotId => s.attemptReplace index snapshotId
  | .updateProperties expected update =>
    if matchesExpected expected s.metadata.properties then
      some { s with wire := s.wire ++ [.properties update] }
    else none
  | .deliver message => s.deliver message

/-- Any table whose main reference is one of its snapshots, with nothing under way. -/
structure Start (s : LifeState F L) : Prop where
  sound : mainVersion.Sound s.metadata
  wire_eq : s.wire = []
  published_eq : s.published = []

end LifeState

/-- The life of one table. -/
def tableLife : Machine (LifeState F L) (LifeOp F) where
  start := LifeState.Start
  next := LifeState.next env ident

/-- The moves of a table's life, with the facts that the checks have established. -/
inductive LifeMove (s : LifeState F L) : LifeState F L → Prop
  | attempt (request : CommitAppend F) (tx : AppendTransaction) (nowMs snapshotId : Int)
      (htable : request.table = ident) (hvalidate : validate env request s.metadata = .ok ())
      (hbuild : buildAppendTransaction env request s.layout nowMs = .ok tx)
      (hfresh : snapshotId ∉ s.metadata.snapshots.map Snapshot.snapshotId) :
      LifeMove s { s with wire := s.wire ++ [.append request (tx.update s.metadata snapshotId)] }
  | checkReplace (request : CommitReplace) :
      LifeMove s { s with replaces := s.replaces ++ [request] }
  | attemptReplace (request : CommitReplace) (snapshotId : Int)
      (hfresh : snapshotId ∉ s.metadata.snapshots.map Snapshot.snapshotId) :
      LifeMove s { s with wire := s.wire ++ [.replace (request.update s.metadata snapshotId)] }
  | updateProperties (update : PropertiesUpdate) :
      LifeMove s { s with wire := s.wire ++ [.properties update] }
  | append (request : CommitAppend F) (update : AppendUpdate)
      (hsent : .append request update ∈ s.wire)
      (hmain : s.metadata.currentSnapshotId = update.requireMain) :
      LifeMove s { s with
        metadata := update.applied s.metadata
        published := s.published ++ [request] }
  | replace (update : ReplaceUpdate) (hsent : .replace update ∈ s.wire)
      (hmain : s.metadata.currentSnapshotId = update.requireMain) :
      LifeMove s { s with metadata := update.applied s.metadata }
  | properties (update : PropertiesUpdate) :
      LifeMove s { s with metadata := update.applied s.metadata }
  | idle : LifeMove s s

section

variable {env ident} {s s' : LifeState F L}

lemma deliver_move {msg : Nat} (h : s.deliver msg = some s') : LifeMove env ident s s' := by
  unfold LifeState.deliver at h
  split at h
  · cases h
  · rename_i request upd hs
    unfold AppendUpdate.apply at h
    by_cases hreq : s.metadata.tableUuid = upd.requireUuid ∧
        s.metadata.currentSnapshotId = upd.requireMain
    · rw [if_pos hreq] at h
      cases h
      exact .append request upd (List.mem_of_getElem? hs) hreq.2
    · rw [if_neg hreq] at h
      cases h
      exact .idle
  · rename_i upd hs
    unfold ReplaceUpdate.apply at h
    by_cases hreq : s.metadata.tableUuid = upd.requireUuid ∧
        s.metadata.currentSnapshotId = upd.requireMain
    · rw [if_pos hreq] at h
      cases h
      exact .replace upd (List.mem_of_getElem? hs) hreq.2
    · rw [if_neg hreq] at h
      cases h
      exact .idle
  · cases h
    exact .properties _

lemma life_move {op : LifeOp F} (h : s.next env ident op = some s') :
    LifeMove env ident s s' := by
  cases op with
  | attempt request nowMs snapshotId =>
    simp only [LifeState.next, LifeState.attempt] at h
    split at h
    · rename_i tx _ hbuild hval
      split_ifs at h with hok
      cases h
      exact .attempt request tx nowMs snapshotId hok.1 hval hbuild hok.2
    · cases h
  | checkReplace request =>
    simp only [LifeState.next] at h
    split_ifs at h
    cases h
    exact .checkReplace request
  | attemptReplace index snapshotId =>
    simp only [LifeState.next, LifeState.attemptReplace] at h
    split at h
    · cases h
    · rename_i request _
      split_ifs at h with hfr
      cases h
      exact .attemptReplace request snapshotId hfr
  | updateProperties ex upd =>
    simp only [LifeState.next] at h
    split_ifs at h
    cases h
    exact .updateProperties upd
  | deliver message => exact deliver_move h

lemma LifeMove.published_subset (h : LifeMove env ident s s') : s.published ⊆ s'.published := by
  cases h with
  | append request update hsent hmain => exact List.subset_append_left _ _
  | _ => exact List.Subset.refl _

end

/-- The part of a table that appends read. -/
structure AppendView where
  tableUuid : Uuid
  currentSnapshotId : Option Int
  snapshots : List Snapshot
  registry : String → Option String

def appendView (m : TableMetadata) : AppendView where
  tableUuid := m.tableUuid
  currentSnapshotId := m.currentSnapshotId
  snapshots := m.snapshots
  registry suffix := m.properties.find? (writerCheckpointPrefix ++ suffix)

/-- The main reference is the version of what appends read. -/
def viewVersion : Versioning AppendView Int where
  version := AppendView.currentSnapshotId
  issued v := {k | ∃ s ∈ v.snapshots, s.snapshotId = k}

/-- No property that TeoDB updates belongs to the writer registry. -/
theorem PropertyKey.text_ne (key : PropertyKey) (suf : String) :
    writerCheckpointPrefix ++ suf ≠ key.text := by
  intro h
  have hl := congrArg String.toList h
  cases key <;>
    simp [PropertyKey.text, writerCheckpointPrefix, propOwner, propLockTs, pinPrefix] at hl

lemma appendView_properties (u : PropertiesUpdate) (m : TableMetadata) :
    appendView (u.applied m) = appendView m := by
  have hreg : ∀ suf, (u.applied m).properties.find? (writerCheckpointPrefix ++ suf) =
      m.properties.find? (writerCheckpointPrefix ++ suf) := by
    intro suf
    unfold PropertiesUpdate.applied
    rw [OrdMap.find?_foldl_erase, OrdMap.find?_insertAll_of_notMem]
    · intro hmem
      obtain ⟨key, _, hkey⟩ : ∃ key : PropertyKey, (∃ v, (key, v) ∈ u.updates) ∧
          key.text = writerCheckpointPrefix ++ suf := by simpa using hmem
      exact key.text_ne suf hkey.symm
    · intro k hk
      obtain ⟨key, _, rfl⟩ := List.mem_map.mp hk
      exact key.text_ne suf
  unfold appendView
  rw [funext hreg]
  rfl

/-- A snapshot update sent for `base`, under an identifier new to it, while the table
has moved on to `now`. -/
structure SentFor (base now : TableMetadata) (snapshotId : Int) : Prop where
  fresh : snapshotId ∉ viewVersion.issued (appendView base)
  sound : viewVersion.Sound (appendView base)
  behind : viewVersion.Behind (appendView base) (appendView now)

section

variable {env ident} {base now next : TableMetadata} {snapshotId : Int}

lemma SentFor.follows (h : SentFor base now snapshotId) (hn : appendView next = appendView now ∨
      viewVersion.Follows (appendView now) (appendView next)) : SentFor base next snapshotId := by
  obtain heq | hfol := hn
  · exact { h with behind := heq ▸ h.behind }
  · exact { h with behind := h.behind.follows h.sound hfol }

/-- A message whose requirement holds meets what its attempt has read. -/
theorem SentFor.view_eq (h : SentFor base now snapshotId)
    (hm : now.currentSnapshotId = base.currentSnapshotId) : appendView base = appendView now :=
  h.behind.eq_of_version hm.symm

lemma sentFor_self (hsound : viewVersion.Sound (appendView now))
    (hfr : snapshotId ∉ now.snapshots.map Snapshot.snapshotId) : SentFor now now snapshotId where
  fresh := by
    rintro ⟨s, hs, rfl⟩
    exact hfr (List.mem_map_of_mem hs)
  sound := hsound
  behind := Versioning.Behind.refl _

lemma follows_of_snapshot {sn : Snapshot} (hsns : next.snapshots = now.snapshots ++ [sn])
    (hm : next.currentSnapshotId = some sn.snapshotId)
    (hfr : sn.snapshotId ∉ viewVersion.issued (appendView now)) :
    viewVersion.Follows (appendView now) (appendView next) := by
  have hiss : ∀ x, x ∈ now.snapshots ++ [sn] → x ∈ (appendView next).snapshots := by
    intro x hx
    show x ∈ next.snapshots
    rwa [hsns]
  constructor
  · rintro k ⟨x, hx, rfl⟩
    exact ⟨x, hiss x (List.mem_append_left _ hx), rfl⟩
  · exact ⟨sn.snapshotId, ⟨sn, hiss sn (by simp), rfl⟩, hfr, hm⟩

end

/-- A published append can be found, and nothing that is read besides it is an error. -/
structure Settled (env : CatalogEnv F L P) (request : CommitAppend F)
    (metadata : TableMetadata) : Prop where
  identity_valid : request.identity.validate request.table request.tableUuid = .ok ()
  tableUuid_eq : metadata.tableUuid = request.tableUuid
  found : ∃ s ∈ metadata.snapshots, snapshotMatchesAppendIdentity env.codec request.table
    request.tableUuid request.identity s.snapshotId s.summary = .ok true
  readable : ∀ s ∈ metadata.snapshots, ∃ found, snapshotMatchesAppendIdentity env.codec
    request.table request.tableUuid request.identity s.snapshotId s.summary = .ok found
  registry : ∀ e ∈ metadata.properties.entries, ValidEntry env.codec request.table e
  checkpoint : ∃ own, parseWriterCheckpoint env.codec request.table metadata.properties
    request.identity.writerId = .ok own ∧ ∃ exact, exactCheckpoint env request own = .ok exact

/-- Validity of the registry is a matter of its own keys. -/
theorem validEntries_iff {codec : TextCodec} {tbl : TableIdent} {props : Properties} :
    (∀ e ∈ props.entries, ValidEntry codec tbl e) ↔
      ∀ suf v, props.find? (writerCheckpointPrefix ++ suf) = some v →
        validateWriterCheckpointEntry codec tbl (writerCheckpointPrefix ++ suf) suf v = .ok () := by
  constructor
  · intro h suf v hf
    exact h _ ((props.find?_eq_some_iff _ _).mp hf) suf (stripStart_eq_some.mpr rfl)
  · rintro h ⟨key, v⟩ hmem suf hstrip
    obtain rfl := stripStart_eq_some.mp hstrip
    exact h suf v ((props.find?_eq_some_iff _ _).mpr hmem)

variable {env ident} {request other : CommitAppend F} {metadata base : TableMetadata}

lemma Settled.resolveAppendStatus_eq (h : Settled env request metadata) {layout : L}
    (hdom : env.icebergToTeoMetadata request.table layout = .ok ()) :
    resolveAppendStatus env request (.ok (metadata, layout)) = .ok (.committed metadata) := by
  obtain ⟨count, hct⟩ := validateWriterCheckpoints_ok_iff.mpr h.registry
  obtain ⟨own, hown, exact, hex⟩ := h.checkpoint
  have hreads : Reads env request metadata count own true exact :=
    ⟨hct, hown, exactSnapshot_eq_true h.readable h.found, hex⟩
  exact hreads.resolveAppendStatus_eq h.identity_valid h.tableUuid_eq hdom

lemma parseWriterCheckpoint_congr {codec : TextCodec} {tbl : TableIdent} {w : WriterId}
    (h : (appendView metadata).registry = (appendView base).registry) :
    parseWriterCheckpoint codec tbl metadata.properties w =
      parseWriterCheckpoint codec tbl base.properties w := by
  have hf : metadata.properties.find? (writerCheckpointKey codec w) =
      base.properties.find? (writerCheckpointKey codec w) :=
    congrFun h (codec.uuidToString w.uuid)
  unfold parseWriterCheckpoint
  rw [hf]

lemma validEntries_congr {codec : TextCodec} {tbl : TableIdent}
    (h : (appendView metadata).registry = (appendView base).registry)
    (hvd : ∀ e ∈ base.properties.entries, ValidEntry codec tbl e) :
    ∀ e ∈ metadata.properties.entries, ValidEntry codec tbl e := by
  rw [validEntries_iff] at hvd ⊢
  intro suf v hf
  exact hvd suf v ((congrFun h suf).symm.trans hf)

lemma Settled.congr (h : Settled env request base) (heq : appendView metadata = appendView base) :
    Settled env request metadata where
  identity_valid := h.identity_valid
  tableUuid_eq := (congrArg AppendView.tableUuid heq).trans h.tableUuid_eq
  found := by
    rw [show metadata.snapshots = base.snapshots from congrArg AppendView.snapshots heq]
    exact h.found
  readable := by
    rw [show metadata.snapshots = base.snapshots from congrArg AppendView.snapshots heq]
    exact h.readable
  registry := validEntries_congr (congrArg AppendView.registry heq) h.registry
  checkpoint := by
    rw [parseWriterCheckpoint_congr (congrArg AppendView.registry heq)]
    exact h.checkpoint

/-- A snapshot that matches an identity carries its commit identifier. -/
theorem commitId_of_match {codec : TextCodec} {tb : TableIdent} {tu : Uuid}
    {idn : AppendCommitIdentity} {snapshotId : Int} {props : Properties}
    (h : snapshotMatchesAppendIdentity codec tb tu idn snapshotId props = .ok true) :
    props.find? commitIdProperty = some (codec.uuidToString idn.commitId.uuid) := by
  by_contra hne
  rw [snapshotMatchesAppendIdentity_false hne] at h
  cases h

/-- The guard admits no second append under a commit identifier of the history. -/
theorem Settled.commitId_ne (h : Settled env request metadata)
    (hval : validate env other base = .ok ()) (heq : appendView base = appendView metadata) :
    request.identity.commitId ≠ other.identity.commitId := by
  intro hcom
  obtain ⟨sn, hmem, hmt⟩ := h.found
  obtain ⟨count, own, hrea⟩ := reads_of_validate hval
  have hsns : metadata.snapshots = base.snapshots :=
    (congrArg AppendView.snapshots heq).symm
  obtain ⟨fd, hfnd⟩ := exactSnapshot_ok_iff.mp ⟨false, hrea.history⟩ sn (hsns ▸ hmem)
  have hid := commitId_of_match hmt
  rw [hcom] at hid
  have ht : snapshotMatchesAppendIdentity env.codec other.table other.tableUuid other.identity
      sn.snapshotId sn.summary = .ok true := by
    simp only [snapshotMatchesAppendIdentity, hid, ne_eq, not_true_eq_false, if_false] at hfnd ⊢
    split at hfnd
    · cases hfnd
    · rfl
  have hcon := (exactSnapshot_true_iff hrea.history).mpr ⟨sn, hsns ▸ hmem, ht⟩
  cases hcon

section

variable {layout : L} {nowMs snapshotId : Int} {tx : AppendTransaction}

lemma Settled.append (hcdc : env.codec.Lawful) (h : Settled env request metadata)
    (hval : validate env other base = .ok ()) (heq : appendView base = appendView metadata)
    (hbuild : buildAppendTransaction env other layout nowMs = .ok tx) :
    Settled env request ((tx.update base snapshotId).applied metadata) := by
  have hcom := h.commitId_ne hval heq
  have hadm := admitted_of_validate hval
  have hvd := AppendCommitIdentity.valid_of_validate hadm.identity_valid
  obtain ⟨hpr, hcp, _⟩ := buildAppendTransaction_ok hbuild
  obtain ⟨hkey, hdec⟩ :=
    checkpointProperty_ok hcdc hcp hadm.identity_valid request.table
  obtain ⟨s, hs, hmt⟩ := h.found
  refine {
      identity_valid := h.identity_valid
      tableUuid_eq := h.tableUuid_eq
      found := ⟨s, List.mem_append_left _ hs, hmt⟩
      readable := ?_
      registry := ?_
      checkpoint := ?_ }
  · intro x hx
    rcases mem_concat_iff.mp hx with hx | rfl
    · exact h.readable x hx
    · refine ⟨false, snapshotMatchesAppendIdentity_false ?_⟩
      have hid := snapshotProperties_find? hpr
        (commitIdProperty, env.codec.uuidToString other.identity.commitId.uuid)
        (by simp [appendSnapshotIdentityProperties])
      intro hsame
      have ht := Option.some.inj (hid.symm.trans hsame)
      apply hcom
      exact congrArg CommitId.mk (hcdc.toString_injective ht.symm)
  · simp only [AppendUpdate.applied, AppendTransaction.update, hkey]
    exact validEntries_insert hcdc hvd.writerId_ne_nil hdec h.registry
  · simp only [AppendUpdate.applied, AppendTransaction.update, hkey]
    rw [parseWriterCheckpoint_insert hcdc hdec]
    by_cases hw : request.identity.writerId = other.identity.writerId
    · refine ⟨_, if_pos hw, false, ?_⟩
      simp [exactCheckpoint, WriterCheckpoint.new, hcom.symm]
    · rw [if_neg hw]
      exact h.checkpoint

lemma settled_applied (hcdc : env.codec.Lawful) (hval : validate env request base = .ok ())
    (heq : appendView base = appendView metadata)
    (hbuild : buildAppendTransaction env request layout nowMs = .ok tx) :
    Settled env request ((tx.update base snapshotId).applied metadata) := by
  have hadm := admitted_of_validate hval
  have hvd := AppendCommitIdentity.valid_of_validate hadm.identity_valid
  obtain ⟨count, own, hreads⟩ := reads_of_validate hval
  obtain ⟨hpr, hcp, _⟩ := buildAppendTransaction_ok hbuild
  obtain ⟨hkey, hdec⟩ :=
    checkpointProperty_ok hcdc hcp hadm.identity_valid request.table
  have hmt : snapshotMatchesAppendIdentity env.codec request.table request.tableUuid
      request.identity snapshotId tx.properties = .ok true :=
    snapshotMatchesAppendIdentity_true (snapshotProperties_find? hpr)
  refine {
      identity_valid := hadm.identity_valid
      tableUuid_eq := (congrArg AppendView.tableUuid heq).symm.trans hadm.tableUuid_eq
      found := ⟨_, List.mem_concat_self, hmt⟩
      readable := ?_
      registry := ?_
      checkpoint := ?_ }
  · intro x hx
    rcases mem_concat_iff.mp hx with hx | rfl
    · have hsns : metadata.snapshots = base.snapshots :=
        (congrArg AppendView.snapshots heq).symm
      exact exactSnapshot_ok_iff.mp ⟨false, hreads.history⟩ x (hsns ▸ hx)
    · exact ⟨true, hmt⟩
  · simp only [AppendUpdate.applied, AppendTransaction.update, hkey]
    exact validEntries_insert hcdc hvd.writerId_ne_nil hdec
      (validEntries_congr (congrArg AppendView.registry heq.symm) hadm.registry_valid)
  · simp only [AppendUpdate.applied, AppendTransaction.update, hkey]
    rw [parseWriterCheckpoint_insert hcdc hdec, if_pos rfl]
    exact ⟨_, rfl, true, by simp [exactCheckpoint, WriterCheckpoint.new]⟩

end

lemma Settled.replace (h : Settled env request metadata) (r : CommitReplace)
    (base : TableMetadata) (snapshotId : Int) :
    Settled env request ((r.update base snapshotId).applied metadata) := by
  obtain ⟨s, hs, hmt⟩ := h.found
  refine { h with found := ⟨s, List.mem_append_left _ hs, hmt⟩, readable := ?_ }
  intro x hx
  rcases mem_concat_iff.mp hx with hx | rfl
  · exact h.readable x hx
  · refine ⟨false, snapshotMatchesAppendIdentity_false ?_⟩
    have hn : r.summary.find? commitIdProperty = none := by
      unfold CommitReplace.summary
      rw [OrdMap.find?_insertAll_of_notMem, OrdMap.find?_empty]
      simp [commitIdProperty, removedDataFilesProp]
    simp [CommitReplace.update, hn]

/-- A message was sent for metadata that the table has had. -/
def Pending (env : CatalogEnv F L P) (ident : TableIdent) (layout : L) (now : TableMetadata) :
    TableUpdate F → Prop
  | .append request update => ∃ base tx nowMs snapshotId, SentFor base now snapshotId ∧
      request.table = ident ∧ validate env request base = .ok () ∧
      buildAppendTransaction env request layout nowMs = .ok tx ∧
      update = tx.update base snapshotId
  | .replace update => ∃ (base : TableMetadata) (snapshotId : Int) (request : CommitReplace),
      SentFor base now snapshotId ∧ update = request.update base snapshotId
  | .properties _ => True

lemma Pending.follows {layout : L} {now next : TableMetadata} {upd : TableUpdate F}
    (h : Pending env ident layout now upd) (hn : appendView next = appendView now ∨
      viewVersion.Follows (appendView now) (appendView next)) :
    Pending env ident layout next upd := by
  cases upd with
  | append request upd =>
    obtain ⟨base, tx, nowMs, snapshotId, hs, hr⟩ := h
    exact ⟨base, tx, nowMs, snapshotId, hs.follows hn, hr⟩
  | replace upd =>
    obtain ⟨base, snapshotId, request, hs, heq⟩ := h
    exact ⟨base, snapshotId, request, hs.follows hn, heq⟩
  | properties upd => trivial

structure LifeInv (env : CatalogEnv F L P) (ident : TableIdent) (s : LifeState F L) : Prop where
  sound : viewVersion.Sound (appendView s.metadata)
  wire : ∀ update ∈ s.wire, Pending env ident s.layout s.metadata update
  published : ∀ request ∈ s.published, request.table = ident ∧ Settled env request s.metadata

variable {s s' : LifeState F L}

lemma LifeInv.start (h : s.Start) : LifeInv env ident s where
  sound := h.sound
  wire := by simp [h.wire_eq]
  published := by simp [h.published_eq]

lemma LifeInv.send (h : LifeInv env ident s) {upd : TableUpdate F}
    (hupd : Pending env ident s.layout s.metadata upd) :
    LifeInv env ident { s with wire := s.wire ++ [upd] } where
  sound := h.sound
  wire := by
    intro u hu
    rcases mem_concat_iff.mp hu with hu | rfl
    · exact h.wire u hu
    · exact hupd
  published := h.published

/-- A table that moves on keeps its messages behind it. -/
theorem LifeInv.moves (h : LifeInv env ident s) {next : TableMetadata} {pub : List (CommitAppend F)}
    (hn : appendView next = appendView s.metadata ∨
      viewVersion.Follows (appendView s.metadata) (appendView next))
    (hpub : ∀ request ∈ pub, request.table = ident ∧ Settled env request next) :
    LifeInv env ident { s with metadata := next, published := pub } where
  sound := by
    obtain heq | hfol := hn
    · exact heq ▸ h.sound
    · exact hfol.sound
  wire := fun upd hupd => (h.wire upd hupd).follows hn
  published := hpub

lemma LifeInv.move (hcdc : env.codec.Lawful) (h : LifeInv env ident s)
    (hmove : LifeMove env ident s s') : LifeInv env ident s' := by
  cases hmove with
  | attempt request tx nowMs snapshotId htb hval hbui hfr =>
    exact h.send ⟨s.metadata, tx, nowMs, snapshotId, sentFor_self h.sound hfr, htb, hval, hbui, rfl⟩
  | checkReplace request => exact ⟨h.sound, h.wire, h.published⟩
  | attemptReplace request snapshotId hfr =>
    exact h.send ⟨s.metadata, snapshotId, request, sentFor_self h.sound hfr, rfl⟩
  | updateProperties upd => exact h.send trivial
  | append request upd hs hm =>
    obtain ⟨base, tx, nowMs, snapshotId, hfor, htb, hval, hbui, rfl⟩ :=
      h.wire _ hs
    have heq := hfor.view_eq hm
    refine h.moves (Or.inr (follows_of_snapshot rfl rfl (heq ▸ hfor.fresh))) ?_
    intro q hq
    rcases mem_concat_iff.mp hq with hq | rfl
    · obtain ⟨hqta, hset⟩ := h.published q hq
      exact ⟨hqta, hset.append hcdc hval heq hbui⟩
    · exact ⟨htb, settled_applied hcdc hval heq hbui⟩
  | replace upd hs hm =>
    obtain ⟨base, snapshotId, request, hfor, rfl⟩ := h.wire _ hs
    have heq := hfor.view_eq hm
    refine h.moves (Or.inr (follows_of_snapshot rfl rfl (heq ▸ hfor.fresh))) ?_
    intro q hq
    obtain ⟨hqta, hset⟩ := h.published q hq
    exact ⟨hqta, hset.replace request base snapshotId⟩
  | properties upd =>
    have heq := appendView_properties upd s.metadata
    refine h.moves (Or.inl heq) ?_
    intro q hq
    obtain ⟨hqta, hset⟩ := h.published q hq
    exact ⟨hqta, hset.congr heq⟩
  | idle => exact h

lemma lifeInv_of_reachable (hcodec : env.codec.Lawful)
    (run : (tableLife env ident).Reachable s) : LifeInv env ident s :=
  run.invariant (fun _ => LifeInv.start) fun _ _ _ h hn => h.move hcodec (life_move hn)

/-- The status check agrees with the guard on all metadata, and finds an append in
every state after its publication. -/
theorem commit_status_exact (env : CatalogEnv F L P) (hcodec : env.codec.Lawful) :
    (∀ (request : CommitAppend F) (metadata : TableMetadata) (layout : L),
      request.identity.validate request.table request.tableUuid = .ok () →
      env.icebergToTeoMetadata request.table layout = .ok () →
      Agrees env request metadata layout) ∧
    ∀ (ident : TableIdent) (s t : LifeState F L) (request : CommitAppend F),
      (tableLife env ident).Reachable s → request ∈ s.published →
      (tableLife env ident).Leads s t →
      env.icebergToTeoMetadata request.table t.layout = .ok () →
      resolveAppendStatus env request (.ok (t.metadata, t.layout)) =
        .ok (.committed t.metadata) := by
  constructor
  · intro request metadata layout hidn hdom
    exact agrees hidn hdom
  · intro ident s t request hs hpub hl hdom
    have hlat : (tableLife env ident).Reachable t ∧ request ∈ t.published := by
      refine hl.preserves (P := fun x => (tableLife env ident).Reachable x ∧
        request ∈ x.published) ⟨hs, hpub⟩ ?_
      rintro x op x' ⟨hx, hmem⟩ hn
      exact ⟨hx.next hn, (life_move hn).published_subset hmem⟩
    exact ((lifeInv_of_reachable hcodec hlat.1).published request hlat.2).2.resolveAppendStatus_eq
      hdom

end

/-- A table with no snapshot. -/
def newTable : LifeState Unit Unit where
  metadata := ⟨Uuid.ofNat 7, none, 0, [], OrdMap.empty⟩
  layout := ()
  replaces := []
  wire := []
  published := []

lemma newTable_start : newTable.Start where
  sound := by
    intro k hk
    cases hk
  wire_eq := rfl
  published_eq := rfl

/-- The request of a second writer for the same table. -/
def otherAppend : CommitAppend Unit :=
  { buildCommitRequest ordersFlush with
    identity := ⟨⟨Uuid.ofNat 2⟩, ⟨3⟩, ⟨Uuid.ofNat 10⟩, ⟨1, 5⟩⟩ }

/-- The append is followed by a replace, a property update and another writer's append. -/
theorem commit_status_exact_newTable :
    ∃ s t request, (tableLife plainEnv ordersTable).Reachable s ∧ request ∈ s.published ∧
      (tableLife plainEnv ordersTable).Leads s t ∧ t.metadata.snapshots.length = 3 ∧
      Agrees plainEnv request t.metadata t.layout ∧
      resolveAppendStatus plainEnv request (.ok (t.metadata, t.layout)) =
        .ok (.committed t.metadata) := by
  have hrun : (((tableLife plainEnv ordersTable).exec newTable
      [.attempt (buildCommitRequest ordersFlush) 1000 42, .deliver 0]).bind fun s =>
        ((tableLife plainEnv ordersTable).exec s
          [.checkReplace ⟨42, "[]"⟩, .attemptReplace 0 43, .deliver 1,
            .updateProperties [(.owner, "")] ⟨[(.owner, "n1")], [.lockTs]⟩, .deliver 2,
            .attempt otherAppend 2000 44, .deliver 3]).map fun t =>
          (s.published.map fun r => (r.tableUuid, r.identity), t.metadata.snapshots.length)) =
      some ([(ordersFlush.tableUuid, ordersFlush.identity)], 3) := by
    decide +kernel
  obtain ⟨s, hs, hlater⟩ := Option.bind_eq_some_iff.mp hrun
  obtain ⟨t, ht, hobs⟩ := Option.map_eq_some_iff.mp hlater
  obtain ⟨hpub, hlen⟩ := Prod.mk.inj hobs
  obtain ⟨request, hreq, hsame⟩ := List.map_eq_singleton_iff.mp hpub
  obtain ⟨hu, hidn⟩ := Prod.mk.inj hsame
  have hrch := Machine.reachable_of_exec (.start newTable_start) hs
  have hmem : request ∈ s.published := by simp [hreq]
  have hl := Machine.Leads.exec .refl ht
  have hvd : request.identity.validate request.table request.tableUuid = .ok () := by
    rw [hidn, hu]
    rfl
  obtain ⟨hagr, hstb⟩ := commit_status_exact plainEnv PlainText.codec_lawful
  exact ⟨s, t, request, hrch, hmem, hl, hlen, hagr request _ _ hvd rfl,
    hstb ordersTable s t request hrch hmem hl rfl⟩

end TeoDB.Catalog

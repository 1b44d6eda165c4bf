import TeoDB.Catalog.AppendStatus
import TeoDB.Catalog.ExactlyOnce
import TeoDB.Ingest.Flush.Ambiguity

/-!
# Rows stay in their incarnation

Other nodes may drop a table and create it again under the same name, with another UUID. The
intents of a buffer carry its UUID, which the guard and the catalog compare, so rows that were
admitted for one incarnation are not published in another.

The reload after an exhausted conflict installs whatever table has the name. The UUID of the next
intent is read from there. `rows_stay_in_incarnation` shows that nothing else moves rows between
incarnations.

## Implementation notes

Attempts and deliveries are steps of the catalog: a dropped call leaves its messages on the wire.
-/

namespace TeoDB.Ingest.Flush

open TeoDB.Core Lib Lib.Async Catalog Storage.Wal Ingest.Buffer

variable {F α L : Type}

/-- An update of a publication on its way to the catalog. -/
structure SentAppend (F : Type) where
  request : CommitAppend F
  update : AppendUpdate

/-- A publication that the catalog has applied, with the metadata after it. -/
structure AppliedAppend (F : Type) where
  request : CommitAppend F
  metadata : TableMetadata

structure IncarnationNode (F α L : Type) where
  buffer : TableBuffer F α
  table : Option (CatalogTable L)
  wire : List (SentAppend F)
  admitted : List (Uuid × BufferEntry α)
  written : List (CommitId × List (BufferEntry α))
  published : List (AppliedAppend F)

inductive IncarnationChoice (F α L : Type) where
  | reply (reply : Reply F α)
  | current
  | confirmed (index : Nat)
  | fails (error : TeoDBError)
  | ingest (op : BufferOp α)
  | attempt (nowMs snapshotId : Int)
  | deliver (message : Nat)
  | drop
  | create (table : CatalogTable L)
  | change (metadata : TableMetadata) (layout : L)
  | cancel

namespace IncarnationNode

variable (s : IncarnationNode F α L)

/-- The data files of a commit hold the entries in flight. -/
def noteWritten (commitId : CommitId) : IncarnationNode F α L :=
  { s with written := s.written ++ [(commitId, s.buffer.state.inFlight)] }

/-- An operation on the buffer, with the entries that it admits. -/
def admitOp (op : BufferOp α) : IncarnationNode F α L :=
  { s with
    buffer := op.apply s.buffer
    admitted := s.admitted ++
      ((op.apply s.buffer).state.pending.drop s.buffer.state.pending.length).map
        fun entry => (s.buffer.metadata.tableUuid, entry) }

/-- Whether the files of a publication hold an entry. -/
def Carries (publication : AppliedAppend F) (entry : BufferEntry α) : Prop :=
  ∃ files ∈ s.written,
    files.1 = publication.request.identity.commitId ∧ entry ∈ files.2

instance [DecidableEq α] (s : IncarnationNode F α L) (publication : AppliedAppend F)
    (entry : BufferEntry α) : Decidable (s.Carries publication entry) :=
  inferInstanceAs (Decidable (∃ files ∈ s.written, _))

section

variable {P : Type} (env : CatalogEnv F L P)

/-- One attempt for the installed intent: the guard on the loaded table, then an update. -/
def sendAttempt (s : IncarnationNode F α L) (nowMs snapshotId : Int) :
    Option (IncarnationNode F α L) :=
  match s.buffer.preparedFlush, s.table with
  | some p, some t =>
    match buildAppendTransaction env (buildCommitRequest p) t.layout nowMs,
        validate env (buildCommitRequest p) t.metadata with
    | .ok tx, .ok _ =>
      some { s with wire := s.wire ++ [⟨buildCommitRequest p, tx.update t.metadata snapshotId⟩] }
    | _, _ => none
  | _, _ => none

/-- The catalog applies an update to the table that has the name, if it meets the
requirements. -/
def deliverUpdate (s : IncarnationNode F α L) (message : Nat) : Option (IncarnationNode F α L) :=
  match s.wire[message]?, s.table with
  | some sent, some t =>
    (sent.update.apply t.metadata).map fun next =>
      { s with
        table := some { t with metadata := next }
        published := s.published ++ [⟨sent.request, next⟩] }
  | _, _ => none

def respond (choice : IncarnationChoice F α L) (s : IncarnationNode F α L) :
    (c : Call F α) → Option (Answer c × IncarnationNode F α L)
  | .loadTable _ =>
    match choice with
    | .current => s.table.map fun t => (.ok t.metadata, s)
    | .fails error => some (.error error, s)
    | _ => none
  | .commitAppend request =>
    match choice with
    | .confirmed index =>
      match s.published[index]? with
      | some publication =>
        if publication.request.identity.commitId = request.identity.commitId then
          some (.ok publication.metadata, s)
        else none
      | none => none
    | .current =>
      match s.table with
      | some t =>
        match validate env request t.metadata with
        | .error (.alreadyCommitted found) => some (.ok found, s)
        | _ => none
      | none => none
    | .fails error => some (.error error, s)
    | _ => none
  | .checkAppendStatus request =>
    match choice with
    | .current => s.table.map fun t =>
      (resolveAppendStatus env request (.ok (t.metadata, t.layout)), s)
    | .fails error => some (resolveAppendStatus env request (.error error), s)
    | _ => none
  | .writeFlushDataFiles _ _ context =>
    match choice with
    | .reply (.files (.ok files)) => some (.ok files, s.noteWritten context.commitId)
    | .reply (.files (.error error)) => some (.error error, s)
    | _ => none
  | c =>
    match choice with
    | .reply reply => (reply.answer c).map fun a => (a, s)
    | _ => none

/-- What requests, the catalog and other nodes do. A change of a table keeps its UUID. -/
def disturb (choice : IncarnationChoice F α L) (s : IncarnationNode F α L) :
    Option (IncarnationNode F α L) :=
  match choice with
  | .ingest (.refreshMetadata _) => none
  | .ingest op => some (s.admitOp op)
  | .attempt nowMs snapshotId => s.sendAttempt env nowMs snapshotId
  | .deliver message => s.deliverUpdate message
  | .drop => some { s with table := none }
  | .create table => if s.table.isNone then some { s with table := some table } else none
  | .change metadata layout =>
    match s.table with
    | some t =>
      if metadata.tableUuid = t.metadata.tableUuid then
        some { s with table := some ⟨metadata, layout⟩ }
      else none
    | none => none
  | _ => none

end

def bufferRef (ident : TableIdent) : BufferRef (IncarnationNode F α L) F α where
  get := buffer
  set s t := { s with buffer := t }
  get_set _ _ := rfl
  ident := ident

/-- A node that flushes a buffer created for one UUID. -/
def incarnations [BEq F] {P : Type} (env : CatalogEnv F L P) (cfg : FlushConfig F)
    (ident : TableIdent) (tableUuid : Uuid) :
    Host (io F α) (IncarnationNode F α L) TeoDBError ServingTask (IncarnationChoice F α L) where
  start s := (∃ metadata committed maxBytes softWatermarkBytes h grace,
      metadata.tableUuid = tableUuid ∧
      s.buffer = (TableBuffer.new ident metadata committed maxBytes softWatermarkBytes
        h).withCommittedGrace grace) ∧
    s.wire = [] ∧ s.admitted = [] ∧ s.written = [] ∧ s.published = []
  program
    | .flushOnce => do
      let _ ← flushOnce (bufferRef ident) cfg
    | .recheckBlocked => do
      let _ ← recheckBlocked (bufferRef ident) cfg
  answer := respond env
  abandon choice s c :=
    match choice with
    | .cancel => if c.awaits then some s else none
    | _ => none
  interfere := disturb env

/-- A reload after a conflict finds the incarnation of the buffer. -/
def staysAnswer (c : Call F α) (choice : IncarnationChoice F α L) :
    Bool :=
  match c, choice with
  | .loadTable _, .current =>
    s.table.all fun t => t.metadata.tableUuid == s.buffer.metadata.tableUuid
  | _, _ => true

def stays (c : Host.Config (io F α) (IncarnationNode F α L) TeoDBError) :
    Host.Turn ServingTask (IncarnationChoice F α L) → Bool
  | .answer choice =>
    match c.task with
    | some (.call call _) => staysAnswer c.state call choice
    | _ => true
  | _ => true

/-- The condition on one turn. -/
def Stays (c : Host.Config (io F α) (IncarnationNode F α L) TeoDBError)
    (turn : Host.Turn ServingTask (IncarnationChoice F α L)) : Prop := stays c turn = true

instance (c : Host.Config (io F α) (IncarnationNode F α L) TeoDBError)
    (turn : Host.Turn ServingTask (IncarnationChoice F α L)) : Decidable (Stays c turn) :=
  inferInstanceAs (Decidable (_ = true))

/-- Everything about the buffer and its publications is of one incarnation. -/
structure Isolated (tableUuid : Uuid) (s : IncarnationNode F α L) : Prop where
  metadata : s.buffer.metadata.tableUuid = tableUuid
  owner : ∀ p, s.buffer.preparedFlush = some p → p.tableUuid = tableUuid
  wire : ∀ sent ∈ s.wire, sent.update.requireUuid = tableUuid
  admitted : ∀ row ∈ s.admitted, row.1 = tableUuid
  published : ∀ publication ∈ s.published, publication.metadata.tableUuid = tableUuid

section

variable {uuid : Uuid} {s s' : IncarnationNode F α L}

/-- Only the metadata and the intent of the buffer matter. -/
lemma Isolated.withBuffer (h : s.Isolated uuid) {t : TableBuffer F α}
    (hmd : t.metadata.tableUuid = uuid)
    (howner : ∀ p, t.preparedFlush = some p → p.tableUuid = uuid) :
    ({ s with buffer := t }).Isolated uuid :=
  ⟨hmd, howner, h.wire, h.admitted, h.published⟩

lemma Isolated.withTable (h : s.Isolated uuid) (tbl : Option (CatalogTable L)) :
    ({ s with table := tbl }).Isolated uuid :=
  ⟨h.metadata, h.owner, h.wire, h.admitted, h.published⟩

/-- A buffer without an intent only needs its metadata. -/
lemma Isolated.withIdleBuffer (h : s.Isolated uuid) {t : TableBuffer F α}
    (hmd : t.metadata.tableUuid = uuid) (hi : t.state.flushState = .idle) :
    ({ s with buffer := t }).Isolated uuid := by
  refine h.withBuffer hmd fun p hp => ?_
  rw [TableBuffer.preparedFlush_eq_none_iff.mpr hi] at hp
  cases hp

lemma metadata_apply (t : TableBuffer F α) {op : BufferOp α}
    (hop : ∀ md', op ≠ .refreshMetadata md') : (op.apply t).metadata = t.metadata := by
  cases op with
  | reserve bt =>
    cases h : t.reserve bt with
    | error e => simp [BufferOp.apply, orUnchanged, h]
    | ok r =>
      obtain ⟨_, _, rfl⟩ := TableBuffer.reserve_eq_ok.mp h
      simp [BufferOp.apply, orUnchanged, h, TableBuffer.addReservation]
  | releaseReservation rsv => exact t.releaseReservation_metadata rsv
  | insertReservedAt batchId rsv created bt =>
    exact t.insertReservedAt_metadata batchId rsv created bt
  | insert batchId bt created =>
    cases h : t.insert batchId bt created with
    | error e => simp [BufferOp.apply, orUnchanged, h]
    | ok r =>
      obtain ⟨_, rfl⟩ := TableBuffer.insert_eq_ok.mp h
      simp [BufferOp.apply, orUnchanged, h, TableBuffer.admitEntry]
  | insertWithGenerationAt batchId gen created bt =>
    cases h : t.insertWithGenerationAt batchId gen created bt with
    | error e => simp [BufferOp.apply, orUnchanged, h]
    | ok r =>
      obtain ⟨_, rfl⟩ := TableBuffer.insertWithGenerationAt_eq_ok.mp h
      simp [BufferOp.apply, orUnchanged, h, TableBuffer.admitEntry]
  | refreshMetadata md' => exact absurd rfl (hop md')

lemma Isolated.admitOp (h : s.Isolated uuid) {op : BufferOp α}
    (hop : ∀ md', op ≠ .refreshMetadata md') : (s.admitOp op).Isolated uuid where
  metadata := by rw [IncarnationNode.admitOp, metadata_apply s.buffer hop, h.metadata]
  owner p hp := h.owner p ((Beside.apply s.buffer op).preparedFlush ▸ hp)
  wire := h.wire
  admitted row hrow := by
    rcases List.mem_append.mp hrow with hold | hnew
    · exact h.admitted row hold
    · obtain ⟨entry, _, rfl⟩ := List.mem_map.mp hnew
      exact h.metadata
  published := h.published

variable {P : Type} {env : CatalogEnv F L P}

/-- The guard lets through only the incarnation of the intent. -/
lemma Isolated.sendAttempt (h : s.Isolated uuid) {nowMs sid : Int}
    (hs : s.sendAttempt env nowMs sid = some s') : s'.Isolated uuid := by
  unfold IncarnationNode.sendAttempt at hs
  split at hs
  · rename_i p t hp _
    split at hs
    · rename_i tx u _ hvd
      cases hs
      refine ⟨h.metadata, h.owner, fun sent hmem => ?_, h.admitted, h.published⟩
      rcases mem_concat_iff.mp hmem with hold | rfl
      · exact h.wire sent hold
      · calc t.metadata.tableUuid = (buildCommitRequest p).tableUuid :=
              (admitted_of_validate hvd).tableUuid_eq
          _ = uuid := h.owner p hp
    · cases hs
  · cases hs

/-- The catalog applies an update only to the incarnation that it requires. -/
lemma Isolated.deliverUpdate (h : s.Isolated uuid) {msg : Nat}
    (hdel : s.deliverUpdate msg = some s') : s'.Isolated uuid := by
  unfold IncarnationNode.deliverUpdate at hdel
  split at hdel
  · rename_i sent t hs _
    obtain ⟨next, hn, rfl⟩ := Option.map_eq_some_iff.mp hdel
    refine ⟨h.metadata, h.owner, h.wire, h.admitted, fun pub hmem => ?_⟩
    rcases mem_concat_iff.mp hmem with hold | rfl
    · exact h.published pub hold
    · unfold AppendUpdate.apply at hn
      split_ifs at hn with hreq
      cases hn
      exact hreq.1.trans (h.wire sent (List.mem_of_getElem? hs))
  · cases hdel

lemma Isolated.disturb (h : s.Isolated uuid) {ch : IncarnationChoice F α L}
    (hdis : IncarnationNode.disturb env ch s = some s') : s'.Isolated uuid := by
  cases ch with
  | ingest op =>
    cases op with
    | refreshMetadata md' => cases hdis
    | _ =>
      cases hdis
      exact h.admitOp (by simp)
  | attempt nowMs sid => exact h.sendAttempt hdis
  | deliver message => exact h.deliverUpdate hdis
  | drop =>
    cases hdis
    exact h.withTable none
  | create tb =>
    simp only [IncarnationNode.disturb] at hdis
    split_ifs at hdis
    cases hdis
    exact h.withTable (some tb)
  | change md layout =>
    simp only [IncarnationNode.disturb] at hdis
    split at hdis
    · split_ifs at hdis
      cases hdis
      exact h.withTable (some ⟨md, layout⟩)
    · cases hdis
  | _ => cases hdis

end

section

variable {P : Type} {env : CatalogEnv F L P} {tableUuid : Uuid} {s s' : IncarnationNode F α L}

def isolation (env : CatalogEnv F L P) (tableUuid : Uuid) :
    Setting (io F α) (IncarnationNode F α L) where
  visible s _ := s.Isolated tableUuid
  interferes s s' := s.Isolated tableUuid → s'.Isolated tableUuid
  answers s c a s' :=
    ∃ choice, staysAnswer s c choice = true ∧ respond env choice s c = some (a, s')

/-- The phases of a flush, as far as the incarnation goes. -/
def isolationPhases (tableUuid : Uuid) : Phases (IncarnationNode F α L) F α where
  idle := Isolated tableUuid
  failed := Isolated tableUuid
  unowned := Isolated tableUuid
  drained _ := Isolated tableUuid
  owned p s := s.Isolated tableUuid ∧ p.tableUuid = tableUuid
  ready p s := s.Isolated tableUuid ∧ p.tableUuid = tableUuid
  confirmed _ m s := s.Isolated tableUuid ∧ m.tableUuid = tableUuid
  published _ := Isolated tableUuid
  rejected _ := Isolated tableUuid
  removed _ := Isolated tableUuid
  reloaded m s := s.Isolated tableUuid ∧ m.tableUuid = tableUuid

lemma Isolated.noteWritten (h : s.Isolated tableUuid) (commitId : CommitId) :
    (s.noteWritten commitId).Isolated tableUuid :=
  ⟨h.metadata, h.owner, h.wire, h.admitted, h.published⟩

/-- An answer changes nothing but the list of written files. -/
lemma respond_cases {ch : IncarnationChoice F α L} {c : Call F α} {a : Answer c}
    (h : respond env ch s c = some (a, s')) :
    (s' = s ∨ ∃ commitId, s' = s.noteWritten commitId) ∧ Plain c a := by
  cases c with
  | loadTable table =>
    cases ch with
    | current =>
      obtain ⟨t, _, heq⟩ := Option.map_eq_some_iff.mp h
      cases heq
      exact ⟨Or.inl rfl, trivial⟩
    | fails e =>
      cases h
      exact ⟨Or.inl rfl, trivial⟩
    | _ => cases h
  | commitAppend req =>
    refine ⟨Or.inl ?_, trivial⟩
    cases ch with
    | confirmed index =>
      simp only [respond] at h
      split at h
      · split_ifs at h
        cases h
        rfl
      · cases h
    | current =>
      simp only [respond] at h
      split at h
      · split at h
        · cases h
          rfl
        · cases h
      · cases h
    | fails e =>
      cases h
      rfl
    | _ => cases h
  | checkAppendStatus req =>
    refine ⟨Or.inl ?_, trivial⟩
    cases ch with
    | current =>
      obtain ⟨t, _, heq⟩ := Option.map_eq_some_iff.mp h
      cases heq
      rfl
    | fails e =>
      cases h
      rfl
    | _ => cases h
  | writeFlushDataFiles md bs context =>
    refine ⟨?_, trivial⟩
    simp only [respond] at h
    split at h
    · cases h
      exact Or.inr ⟨context.commitId, rfl⟩
    · cases h
      exact Or.inl rfl
    · cases h
  | _ =>
    cases ch with
    | reply rp =>
      obtain ⟨b, hb, heq⟩ := Option.map_eq_some_iff.mp h
      cases heq
      exact ⟨Or.inl rfl, plain_of_answer hb⟩
    | _ => cases h

lemma Isolated.answered (h : s.Isolated tableUuid) {c : Call F α} {a : Answer c}
    (ha : (isolation env tableUuid).answers s c a s') : s'.Isolated tableUuid ∧ Plain c a := by
  obtain ⟨choice, _, ha⟩ := ha
  obtain ⟨rfl | ⟨commitId, rfl⟩, hpl⟩ := respond_cases ha
  · exact ⟨h, hpl⟩
  · exact ⟨h.noteWritten commitId, hpl⟩

/-- A publication is confirmed with metadata of the incarnation of its intent. -/
lemma Isolated.tableUuid_of_commit (h : s.Isolated tableUuid) {p : PreparedFlush F}
    (hp : p.tableUuid = tableUuid) {m : TableMetadata}
    (ha : (isolation (α := α) env tableUuid).answers s
      (.commitAppend (buildCommitRequest p)) (.ok m)
      s') : m.tableUuid = tableUuid := by
  obtain ⟨ch, _, ha⟩ := ha
  cases ch with
  | confirmed index =>
    simp only [respond] at ha
    split at ha
    · rename_i pub hpub
      split_ifs at ha
      cases ha
      exact h.published pub (List.mem_of_getElem? hpub)
    · cases ha
  | current =>
    simp only [respond] at ha
    split at ha
    · split at ha
      · rename_i found hfound
        cases ha
        exact (tableUuid_of_alreadyCommitted hfound).trans hp
      · cases ha
    · cases ha
  | _ => cases ha

lemma tableUuid_of_check {p : PreparedFlush F} (hp : p.tableUuid = tableUuid)
    {m : TableMetadata} (ha : (isolation (α := α) env tableUuid).answers s
      (.checkAppendStatus (buildCommitRequest p)) (.ok (.committed m)) s') :
    m.tableUuid = tableUuid := by
  obtain ⟨ch, _, ha⟩ := ha
  cases ch with
  | current =>
    obtain ⟨t, _, heq⟩ := Option.map_eq_some_iff.mp ha
    exact (tableUuid_of_committed (Prod.mk.inj heq).1).trans hp
  | fails error =>
    obtain ⟨heq, _⟩ := Prod.mk.inj (Option.some.inj ha)
    exact (tableUuid_of_committed heq).trans hp
  | _ => cases ha

/-- Within the condition a reload finds the incarnation of the buffer. -/
lemma Isolated.tableUuid_of_load (h : s.Isolated tableUuid) {tb : TableIdent} {m : TableMetadata}
    (ha : (isolation (F := F) (α := α) env tableUuid).answers s (.loadTable tb) (.ok m) s') :
    m.tableUuid = tableUuid := by
  obtain ⟨ch, hst, ha⟩ := ha
  cases ch with
  | current =>
    obtain ⟨t, ht, heq⟩ := Option.map_eq_some_iff.mp ha
    cases heq
    simp only [staysAnswer, ht, Option.all_some, beq_iff_eq] at hst
    exact hst.trans h.metadata
  | _ => cases ha

lemma isolated_stable :
    (isolation (α := α) env tableUuid).Stable (Isolated tableUuid) := fun _ _ hs h => h hs

lemma isolated_and_stable (property : Prop) :
    (isolation (α := α) env tableUuid).Stable fun s => s.Isolated tableUuid ∧ property :=
  fun _ _ hs h => ⟨h hs.1, hs.2⟩

lemma metadata_drainPendingToInFlight (t : TableBuffer F α) :
    t.drainPendingToInFlight.2.metadata = t.metadata := by
  unfold TableBuffer.drainPendingToInFlight
  split_ifs
  · rfl
  · rfl
  · dsimp only
    split_ifs <;> rfl

variable (env tableUuid) in
lemma isolationPhases_rules [BEq F] (ident : TableIdent) :
    (isolationPhases (F := F) (α := α) tableUuid).Rules (isolation env tableUuid)
      (bufferRef (L := L) ident) where
  idle_stable := isolated_stable
  failed_stable := isolated_stable
  unowned_stable := isolated_stable
  drained_stable _ := isolated_stable
  owned_stable _ := isolated_and_stable _
  ready_stable _ := isolated_and_stable _
  confirmed_stable _ _ := isolated_and_stable _
  published_stable _ := isolated_stable
  rejected_stable _ := isolated_stable
  removed_stable _ := isolated_stable
  reloaded_stable _ := isolated_and_stable _
  idle_failed _ h := h
  drained_idle _ _ h := h
  ready_failed _ _ h := h.1
  confirmed_failed _ _ _ h := h.1
  rejected_failed _ _ h := h
  removed_failed _ _ h := h
  blocked s h :=
    ⟨h, fun b hb => ⟨h, h.owner _ (TableBuffer.preparedFlush_of_blockedFlush hb)⟩⟩
  prepared s h := ⟨h, fun p hp => ⟨h, h.owner p hp⟩, fun _ => h⟩
  drain s h := by
    refine ⟨h, h.withBuffer ?_ fun p hp => h.owner p ?_⟩
    · rw [bufferRef, metadata_drainPendingToInFlight, h.metadata]
    · rw [← hp]
      simp [bufferRef, TableBuffer.preparedFlush, TableBuffer.drainPendingToInFlight_flushState]
  build _ s c h _ := ⟨h, fun a s' ha => (h.answered ha).1⟩
  metadata _ s h := h
  rollback _ s h := by
    refine ⟨h, fun t ht => ?_⟩
    obtain ⟨hi, rfl⟩ := TableBuffer.rollbackUnpreparedFlush_eq_ok.mp ht
    exact h.withIdleBuffer h.metadata hi
  install _ p s h := by
    refine ⟨h, fun t ht => ?_⟩
    obtain ⟨⟨_, _, hu⟩, hcases⟩ := TableBuffer.setPrepared_ok ht
    have hp : p.tableUuid = tableUuid := hu.trans h.metadata
    rcases hcases with ⟨_, rfl⟩ | ⟨_, rfl⟩
    · refine ⟨h.withBuffer h.metadata fun q hq => ?_, hp⟩
      cases hq
      exact hp
    · exact ⟨h, hp⟩
  persist p s h := ⟨h.1, fun a s' ha => ⟨(h.1.answered ha).1, fun _ => ⟨(h.1.answered ha).1, h.2⟩⟩⟩
  commit p s h := by
    refine ⟨h.1, fun a s' ha => ?_⟩
    have hs' := (h.1.answered ha).1
    cases a with
    | ok m => exact ⟨hs', h.1.tableUuid_of_commit h.2 ha⟩
    | error e =>
      simp only [Phases.answered]
      cases commitReaction e with
      | keep => exact ⟨hs', h.2⟩
      | block => exact ⟨hs', h.2⟩
      | fence ep => exact hs'
      | retire => exact hs'
  check p s h := by
    refine ⟨h.1, fun a s' ha => ?_⟩
    have hs' := (h.1.answered ha).1
    cases a with
    | error e => exact ⟨hs', h.2⟩
    | ok status =>
      cases status with
      | committed m => exact ⟨hs', tableUuid_of_check h.2 ha⟩
      | notCommitted => exact ⟨hs', h.2⟩
      | unknown message => exact ⟨hs', h.2⟩
  tick_ready p s c h _ := ⟨h.1, fun a s' ha => ⟨(h.1.answered ha).1, h.2⟩⟩
  tick_confirmed p m s h := ⟨h.1, fun a s' ha => ⟨(h.1.answered ha).1, h.2⟩⟩
  complete p m pushedAt now s h := by
    refine ⟨h.1, fun t ht => ?_⟩
    obtain ⟨_, rfl⟩ := TableBuffer.markCommitted_eq_ok.mp ht
    exact h.1.withIdleBuffer h.2 rfl
  advance p table s h := ⟨h, fun a s' ha => (h.answered ha).1⟩
  cleanup p s h := ⟨h, fun a s' ha => (h.answered ha).1⟩
  gc s h := ⟨h, fun a s' ha => (h.answered ha).1⟩
  observeEpoch p ep s h := ⟨h, fun a s' ha => h.answered ha⟩
  remove p s h :=
    ⟨h, fun a s' ha => ⟨(h.answered ha).1, fun _ => (h.answered ha).1, (h.answered ha).2⟩⟩
  fail p s h := by
    refine ⟨h, fun t ht => ?_⟩
    obtain ⟨_, rfl⟩ := TableBuffer.markFlushFailed_eq_ok.mp ht
    exact h.withIdleBuffer h.metadata rfl
  block p err errorClass n now s h := by
    refine ⟨h.1, fun t ht => ?_⟩
    obtain ⟨_, sinceMs, rfl⟩ := TableBuffer.markFlushBlockedWithClass_ok ht
    refine h.1.withBuffer h.1.metadata fun q hq => ?_
    cases hq
    exact h.2
  recheck p err n now s h := by
    refine ⟨h.1, h.1.withBuffer ?_ fun q hq => h.1.owner q ?_⟩
    · rcases s.buffer.markBlockedRecheck_cases err n now with heq | ⟨_, _, _, _, heq⟩
      · rw [bufferRef, heq, h.1.metadata]
      · rw [bufferRef, heq]
        exact h.1.metadata
    · exact (TableBuffer.markBlockedRecheck_preparedFlush ..).symm.trans hq
  reload s h := by
    refine ⟨h, fun a s' ha => ?_⟩
    cases a with
    | ok m => exact ⟨(h.answered ha).1, h.tableUuid_of_load ha⟩
    | error e => exact (h.answered ha).1
  refresh m s h := ⟨h.1, h.1.withBuffer h.2 h.1.owner⟩

lemma incarnations_sound [BEq F] (env : CatalogEnv F L P) (cfg : FlushConfig F)
    (ident : TableIdent) (tableUuid : Uuid) :
    (incarnations (α := α) env cfg ident tableUuid).Sound Stays (isolation env tableUuid)
      (Isolated tableUuid) where
  start s h := by
    obtain ⟨⟨md, cm, maxBytes, soft, hmax, grace, hu, hbuf⟩, hw, hadm, _, hpub⟩ := h
    refine ⟨by rw [hbuf]; exact hu, fun p hp => ?_, ?_, ?_, ?_⟩
    · rw [hbuf] at hp
      cases hp
    · simp [hw]
    · simp [hadm]
    · simp [hpub]
  refl _ := id
  trans _ _ _ h h' := h' ∘ h
  stable := isolated_stable
  spawn task s h := by
    have rules := isolationPhases_rules (α := α) env tableUuid ident
    cases task with
    | flushOnce => exact wp_ended_discard (rules.flushOnce_spec h)
    | recheckBlocked =>
      exact wp_ended_discard (rules.recheckBlocked_spec h)
  interfere c ch s' _ h hs := hs.disturb h
  answer s c k ch a s' hst h := ⟨ch, hst, h⟩
  abandon s c k ch s' _ hvis h := by
    cases ch with
    | cancel =>
      rw [incarnations] at h
      dsimp only at h
      split_ifs at h
      cases h
      exact hvis
    | _ => cases h

end

/-- In every run within the condition, an admitted row is published only in the
incarnation that it was admitted for. -/
theorem rows_stay_in_incarnation [BEq F] {P : Type} (env : CatalogEnv F L P) (cfg : FlushConfig F)
    (ident : TableIdent) (tableUuid : Uuid)
    {c : Host.Config (io F α) (IncarnationNode F α L) TeoDBError}
    (run : (incarnations env cfg ident tableUuid).machine.ReachableIf Stays c) :
    ∀ publication ∈ c.state.published, ∀ row ∈ c.state.admitted,
      c.state.Carries publication row.2 → publication.metadata.tableUuid = row.1 := by
  have sound := incarnations_sound (α := α) env cfg ident tableUuid
  have hiso : c.state.Isolated tableUuid := sound.always (fun _ h => h) (fun _ _ h => h) run
  intro publication hpub row hrow _
  exact (hiso.published publication hpub).trans (hiso.admitted row hrow).symm

/-- A new table of another incarnation. -/
def eventsIncarnation (n : Nat) : CatalogTable Unit :=
  ⟨⟨.ofNat n, none, 0, [], OrdMap.empty⟩, ()⟩

def eventsTables : IncarnationNode Unit Unit Unit :=
  ⟨committedBuffer, some (eventsIncarnation 7), [], [], [], []⟩

def eventsIncarnations : Host (io Unit Unit) (IncarnationNode Unit Unit Unit) TeoDBError
    ServingTask (IncarnationChoice Unit Unit Unit) :=
  incarnations plainEnv plainConfig.toFlushConfig eventsTable eventsUuid

lemma eventsIncarnations_start : eventsIncarnations.machine.start ⟨eventsTables, none⟩ :=
  ⟨⟨⟨eventsMetadata, 1, 100, 80, by decide, 0, rfl, rfl⟩, rfl, rfl, rfl, rfl⟩, rfl⟩

/-- A flush up to its publication. -/
def preparing (commitId : Nat) : List (Host.Turn ServingTask (IncarnationChoice Unit Unit Unit)) :=
  [ .spawn .flushOnce, .act, .act, .act, .act,
    .answer (.reply (.identity ⟨⟨.ofNat 1⟩, ⟨1⟩⟩)),
    .answer (.reply (.commitId ⟨.ofNat commitId⟩)),
    .answer (.reply (.files (.ok [()]))),
    .answer (.reply (.millis 0)),
    .act,
    .answer (.reply (.log (.ok ()))) ]

/-- One record is flushed, its publication ends with a conflict, and the next flush is published. -/
def conflicting (others : List (IncarnationChoice Unit Unit Unit)) :
    List (Host.Turn ServingTask (IncarnationChoice Unit Unit Unit)) :=
  [.interfere (.ingest (.insertWithGenerationAt (.ofNat 3) 2 0 eventsBatch))] ++ preparing 2 ++
  [ .answer (.fails (.conflict "events" "0" "1")),
    .answer (.reply (.log (.ok ()))),
    .act ] ++ others.map .interfere ++
  [ .answer .current, .act, .finish ] ++ preparing 4 ++
  [ .interfere (.attempt 0 42), .interfere (.deliver 0) ]

/-- The incarnation of each publication, with that of each row and whether it is there. -/
def incarnationsOf (c : Host.Config (io Unit Unit) (IncarnationNode Unit Unit Unit) TeoDBError) :
    List (Uuid × List (Uuid × Bool)) :=
  c.state.published.map fun publication => (publication.metadata.tableUuid,
    c.state.admitted.map fun row => (row.1, decide (c.state.Carries publication row.2)))

lemma exists_of_incarnationsOf
    {c : Host.Config (io Unit Unit) (IncarnationNode Unit Unit Unit) TeoDBError}
    {incarnation admittedFor : Uuid}
    (h : incarnationsOf c = [(incarnation, [(admittedFor, true)])]) :
    ∃ pub ∈ c.state.published, ∃ row ∈ c.state.admitted,
      c.state.Carries pub row.2 ∧ pub.metadata.tableUuid = incarnation ∧ row.1 = admittedFor := by
  obtain ⟨pub, hpub, heq⟩ := List.map_eq_singleton_iff.mp h
  obtain ⟨hinc, hr⟩ := Prod.mk.inj heq
  obtain ⟨row, hadm, hrow⟩ := List.map_eq_singleton_iff.mp hr
  obtain ⟨hu, hcar⟩ := Prod.mk.inj hrow
  refine ⟨pub, ?_, row, ?_, of_decide_eq_true hcar, hinc, hu⟩
  · rw [hpub]
    exact List.mem_singleton_self _
  · rw [hadm]
    exact List.mem_singleton_self _

/-- The same incarnation is loaded after the conflict. -/
theorem rows_stay_in_incarnation_conflict :
    ∃ c : Host.Config (io Unit Unit) (IncarnationNode Unit Unit Unit) TeoDBError,
      eventsIncarnations.machine.ReachableIf Stays c ∧
      ∃ publication ∈ c.state.published, ∃ row ∈ c.state.admitted,
        c.state.Carries publication row.2 ∧ publication.metadata.tableUuid = row.1 := by
  have hrun : ((eventsIncarnations.machine.guarded Stays).exec ⟨eventsTables, none⟩
      (conflicting [])).map incarnationsOf = some [(eventsUuid, [(eventsUuid, true)])] := by
    decide +kernel
  obtain ⟨c, hc, hobs⟩ := Machine.existsIf_of_exec eventsIncarnations_start hrun
  obtain ⟨publication, hpub, row, hrow, hcar, _⟩ := exists_of_incarnationsOf hobs
  exact ⟨c, hc, publication, hpub, row, hrow, hcar,
    rows_stay_in_incarnation plainEnv plainConfig.toFlushConfig eventsTable eventsUuid hc
      publication hpub row hrow hcar⟩

/-- The table is recreated before the reload, and the old incarnation's row is published in the new
one. -/
theorem rows_move_to_recreated_table :
    ∃ c : Host.Config (io Unit Unit) (IncarnationNode Unit Unit Unit) TeoDBError,
      eventsIncarnations.machine.Reachable c ∧
      ∃ publication ∈ c.state.published, ∃ row ∈ c.state.admitted,
        c.state.Carries publication row.2 ∧ publication.metadata.tableUuid ≠ row.1 := by
  have hrun : (eventsIncarnations.machine.exec ⟨eventsTables, none⟩
      (conflicting [.drop, .create (eventsIncarnation 8)])).map incarnationsOf =
        some [(.ofNat 8, [(eventsUuid, true)])] := by
    decide +kernel
  obtain ⟨c, hc, hobs⟩ := Machine.exists_of_exec eventsIncarnations_start hrun
  obtain ⟨publication, hpub, row, hrow, hcar, hinc, hadm⟩ :=
    exists_of_incarnationsOf hobs
  refine ⟨c, hc, publication, hpub, row, hrow, hcar, ?_⟩
  rw [hinc, hadm]
  decide

end IncarnationNode

end TeoDB.Ingest.Flush

import TeoDB.Catalog.AppendGuard
import TeoDB.Lib.Machine
import TeoDB.Lib.WatermarkLedger

/-!
# Publication of prepared flushes

Any number of writers publish prepared flushes through guarded appends. Updates may be delayed,
repeated or unanswered, transactions and whole flushes are retried, and processes restart. Against
all of these, a generation of a writer enters the history of a table at most once.

## Implementation notes

The catalog guarantees only that an update is atomic and checks its requirements. A table whose
main reference is the one that an attempt loaded is the table it validated, because references are
never reused (`mainVersion`). The checkpoints of a table are the watermarks of a ledger whose
entries are its snapshots (`Represents`). Messages stay on the wire and can arrive again.
-/

namespace TeoDB.Catalog

open TeoDB.Core Lib Lib.MachineInt Storage.Wal

/-- A table in the catalog, with the part that no append changes. -/
structure CatalogTable (L : Type) where
  metadata : TableMetadata
  layout : L

/-- Where a call of `commit_append` stands. A waiting call knows its message. -/
inductive CallPhase where
  | begun
  | attempting (tx : AppendTransaction)
  | waiting (tx : AppendTransaction) (message : Nat)
  | returned (result : TeoDBResult TableMetadata)
  | dropped

/-- The transaction that a call has built. -/
def CallPhase.transaction : CallPhase → Option AppendTransaction
  | attempting tx => some tx
  | waiting tx _ => some tx
  | _ => none

structure Call (F : Type) where
  request : CommitAppend F
  phase : CallPhase

/-- A restart of the writer's process ends its running calls. -/
def Call.afterRestart {F : Type} (writer : WriterId) (c : Call F) : Call F :=
  if c.request.identity.writerId = writer then
    match c.phase with
    | .returned _ => c
    | _ => { c with phase := .dropped }
  else c

/-- An update on the wire. -/
structure Sent where
  call : Nat
  table : TableIdent
  update : AppendUpdate

structure PubState (F L : Type) where
  tables : TableIdent → Option (CatalogTable L)
  intents : List (PreparedFlush F)
  calls : Nat → Option (Call F)
  callCount : Nat
  wire : List Sent
  answers : List (Nat × TableMetadata)
  commits : List (Uuid × Snapshot)

/-- Steps of writers, network and catalog. -/
inductive PubOp (F : Type) where
  | prepare (prepared : PreparedFlush F)
  | commitFlush (intent : Nat)
  | bootstrap (call : Nat) (nowMs : Int)
  | attempt (call : Nat) (snapshotId : Int)
  | deliver (message : Nat)
  | answer (call index : Nat)
  | fail (call : Nat) (error : IcebergError) (again : Bool)
  | restart (writer : WriterId)

namespace PubState

variable {F L P : Type}

def setCall (s : PubState F L) (id : Nat) (c : Call F) : PubState F L :=
  { s with calls := Function.update s.calls id (some c) }

/-- An exact identity is in the history of an incarnation. -/
def Published (codec : TextCodec) (s : PubState F L) (tableUuid : Uuid)
    (identity : AppendCommitIdentity) : Prop :=
  ∃ c ∈ s.commits, c.1 = tableUuid ∧
    ∀ p ∈ appendSnapshotIdentityProperties codec tableUuid identity,
      c.2.summary.find? p.1 = some p.2

instance (codec : TextCodec) (s : PubState F L) (tableUuid : Uuid)
    (identity : AppendCommitIdentity) : Decidable (s.Published codec tableUuid identity) :=
  inferInstanceAs (Decidable (∃ c ∈ s.commits, _))

end PubState

section

variable {F L P : Type} (env : CatalogEnv F L P)

/-- The numbers of an intent are within their machine types. -/
def IntentFits (p : PreparedFlush F) : Prop :=
  p.writerEpoch.value ≤ u64Max ∧ p.generations.hi ≤ u64Max

instance (p : PreparedFlush F) : Decidable (IntentFits p) :=
  inferInstanceAs (Decidable (_ ∧ _))

/-- The end of `commit_append`, which returns metadata in its domain form. -/
def finish (request : CommitAppend F) (layout : L) :
    TeoDBResult TableMetadata → TeoDBResult TableMetadata
  | .error error => .error error
  | .ok metadata => (env.icebergToTeoMetadata request.table layout).map fun _ => metadata

/-- A flush fixes an intent under a commit identifier that was never used, for a
table that it has loaded. -/
def prepareStep (s : PubState F L) (p : PreparedFlush F) : Option (PubState F L) :=
  match s.tables p.table with
  | none => none
  | some t =>
    if (∀ q ∈ s.intents, q.commitId ≠ p.commitId) ∧ IntentFits p ∧
        (env.icebergToTeoMetadata p.table t.layout).isOk then
      some { s with intents := s.intents ++ [p] }
    else none

/-- A call starts for an intent, be it the first, a retry, or after recovery. -/
def commitFlushStep (s : PubState F L) (intent : Nat) : Option (PubState F L) :=
  match s.intents[intent]? with
  | none => none
  | some p =>
    some { s.setCall s.callCount ⟨buildCommitRequest p, .begun⟩ with
      callCount := s.callCount + 1 }

/-- The bootstrap load, from which the transaction is built. -/
def bootstrapStep (s : PubState F L) (id : Nat) (nowMs : Int) : Option (PubState F L) :=
  match s.calls id with
  | some ⟨request, .begun⟩ =>
    match s.tables request.table with
    | none => none
    | some t =>
      match buildAppendTransaction env request t.layout nowMs with
      | .error error => some (s.setCall id ⟨request, .returned (.error error)⟩)
      | .ok tx => some (s.setCall id ⟨request, .attempting tx⟩)
  | _ => none

/-- One attempt: a load through the guard and, if it admits, an update under a new snapshot
identifier. -/
def attemptStep (s : PubState F L) (id : Nat) (snapshotId : Int) : Option (PubState F L) :=
  match s.calls id with
  | some ⟨request, .attempting tx⟩ =>
    match s.tables request.table with
    | none => none
    | some t =>
      match validate env request t.metadata with
      | .error rejection =>
        some (s.setCall id ⟨request, .returned (finish env request t.layout
          (guardResult env (some rejection) request rejectionError))⟩)
      | .ok _ =>
        if snapshotId ∈ t.metadata.snapshots.map Snapshot.snapshotId then none
        else
          some { s.setCall id ⟨request, .waiting tx s.wire.length⟩ with
            wire := s.wire ++ [⟨id, request.table, tx.update t.metadata snapshotId⟩] }
  | _ => none

/-- A message reaches the catalog, perhaps not for the first time. -/
def deliverStep (s : PubState F L) (message : Nat) : Option (PubState F L) :=
  match s.wire[message]? with
  | none => none
  | some sent =>
    match s.tables sent.table with
    | none => none
    | some t =>
      match sent.update.apply t.metadata with
      | none => some s
      | some metadata =>
        some { s with
          tables := Function.update s.tables sent.table (some { t with metadata := metadata })
          answers := s.answers ++ [(message, metadata)]
          commits := s.commits ++ [(t.metadata.tableUuid, sent.update.snapshot)] }

/-- The answer to an applied update reaches its call. -/
def answerStep (s : PubState F L) (id index : Nat) : Option (PubState F L) :=
  match s.calls id, s.answers[index]? with
  | some ⟨request, .waiting _ message⟩, some (answered, metadata) =>
    match s.tables request.table with
    | none => none
    | some t =>
      if answered = message then
        some (s.setCall id ⟨request, .returned (finish env request t.layout (.ok metadata))⟩)
      else none
  | _, _ => none

/-- A call sees an error. The transaction retries those marked so, until it gives up. -/
def failStep (s : PubState F L) (id : Nat) (error : IcebergError) (again : Bool) :
    Option (PubState F L) :=
  match s.calls id with
  | none => none
  | some ⟨request, phase⟩ =>
    match phase, phase.transaction with
    | .begun, _ => some (s.setCall id ⟨request, .returned (.error (mapIcebergError error))⟩)
    | _, some tx =>
      if again then
        if error.retryable then some (s.setCall id ⟨request, .attempting tx⟩) else none
      else some (s.setCall id ⟨request, .returned (guardResult env none request error)⟩)
    | _, none => none

def PubState.next (s : PubState F L) : PubOp F → Option (PubState F L)
  | .prepare p => prepareStep env s p
  | .commitFlush intent => commitFlushStep s intent
  | .bootstrap id nowMs => bootstrapStep env s id nowMs
  | .attempt id snapshotId => attemptStep env s id snapshotId
  | .deliver message => deliverStep s message
  | .answer id index => answerStep env s id index
  | .fail id error again => failStep env s id error again
  | .restart writer =>
    some { s with calls := fun id => (s.calls id).map (Call.afterRestart writer) }

/-- New tables with distinct incarnations, and no writer at work. -/
structure PubState.Start (s : PubState F L) : Prop where
  noSnapshot : ∀ ident t, s.tables ident = some t →
    t.metadata.snapshots = [] ∧ t.metadata.currentSnapshotId = none
  uuid_inj : ∀ i j t u, s.tables i = some t → s.tables j = some u →
    t.metadata.tableUuid = u.metadata.tableUuid → i = j
  intents_eq : s.intents = []
  calls_eq : ∀ id, s.calls id = none
  wire_eq : s.wire = []
  commits_eq : s.commits = []

/-- The system of writers, network and catalog. -/
def publication : Machine (PubState F L) (PubOp F) where
  start := PubState.Start
  next := PubState.next env

/-- The moves of the system, with the facts that its checks have established. -/
inductive PubMove (s : PubState F L) : PubState F L → Prop
  | prepare (p : PreparedFlush F) (t : CatalogTable L) (ht : s.tables p.table = some t)
      (hnew : ∀ q ∈ s.intents, q.commitId ≠ p.commitId) (hfits : IntentFits p)
      (hdomain : (env.icebergToTeoMetadata p.table t.layout).isOk) :
      PubMove s { s with intents := s.intents ++ [p] }
  | begin (p : PreparedFlush F) (hp : p ∈ s.intents) :
      PubMove s { s.setCall s.callCount ⟨buildCommitRequest p, .begun⟩ with
        callCount := s.callCount + 1 }
  | build (id : Nat) (request : CommitAppend F) (t : CatalogTable L) (nowMs : Int)
      (tx : AppendTransaction) (hcall : s.calls id = some ⟨request, .begun⟩)
      (ht : s.tables request.table = some t)
      (hbuild : buildAppendTransaction env request t.layout nowMs = .ok tx) :
      PubMove s (s.setCall id ⟨request, .attempting tx⟩)
  | resume (id : Nat) (c : Call F) (phase : CallPhase) (hcall : s.calls id = some c)
      (hphase : ∀ tx, phase.transaction = some tx → c.phase.transaction = some tx) :
      PubMove s (s.setCall id ⟨c.request, phase⟩)
  | send (id : Nat) (request : CommitAppend F) (tx : AppendTransaction) (t : CatalogTable L)
      (snapshotId : Int) (hcall : s.calls id = some ⟨request, .attempting tx⟩)
      (ht : s.tables request.table = some t) (hvalidate : validate env request t.metadata = .ok ())
      (hfresh : snapshotId ∉ mainVersion.issued t.metadata) :
      PubMove s { s.setCall id ⟨request, .waiting tx s.wire.length⟩ with
        wire := s.wire ++ [⟨id, request.table, tx.update t.metadata snapshotId⟩] }
  | deliver (message : Nat) (sent : Sent) (t : CatalogTable L) (hsent : sent ∈ s.wire)
      (ht : s.tables sent.table = some t)
      (huuid : t.metadata.tableUuid = sent.update.requireUuid)
      (hmain : t.metadata.currentSnapshotId = sent.update.requireMain) :
      PubMove s { s with
        tables := Function.update s.tables sent.table
          (some { t with metadata := sent.update.applied t.metadata })
        answers := s.answers ++ [(message, sent.update.applied t.metadata)]
        commits := s.commits ++ [(t.metadata.tableUuid, sent.update.snapshot)] }
  | restart (writer : WriterId) :
      PubMove s { s with calls := fun id => (s.calls id).map (Call.afterRestart writer) }
  | idle : PubMove s s

variable {env} {s s' : PubState F L} {id : Nat}

lemma bootstrapStep_move {nowMs : Int} (h : bootstrapStep env s id nowMs = some s') :
    PubMove env s s' := by
  unfold bootstrapStep at h
  split at h
  · rename_i req hc
    split at h
    · cases h
    · rename_i t ht
      split at h
      · cases h
        exact .resume id _ _ hc (by simp [CallPhase.transaction])
      · rename_i tx htx
        cases h
        exact .build id req t nowMs tx hc ht htx
  · cases h

lemma attemptStep_move {snapshotId : Int} (h : attemptStep env s id snapshotId = some s') :
    PubMove env s s' := by
  unfold attemptStep at h
  split at h
  · rename_i req tx hc
    split at h
    · cases h
    · rename_i t ht
      split at h
      · cases h
        exact .resume id _ _ hc (by simp [CallPhase.transaction])
      · rename_i hval
        split_ifs at h with hfr
        cases h
        refine .send id req tx t snapshotId hc ht hval ?_
        rintro ⟨x, hx, rfl⟩
        exact hfr (List.mem_map_of_mem hx)
  · cases h

lemma deliverStep_move {msg : Nat} (h : deliverStep s msg = some s') : PubMove env s s' := by
  unfold deliverStep at h
  split at h
  · cases h
  · rename_i sent hs
    split at h
    · cases h
    · rename_i t ht
      unfold AppendUpdate.apply at h
      by_cases hreq : t.metadata.tableUuid = sent.update.requireUuid ∧
          t.metadata.currentSnapshotId = sent.update.requireMain
      · simp only [hreq, and_self, if_true] at h
        cases h
        rw [← hreq.1]
        exact .deliver msg sent t (List.mem_of_getElem? hs) ht hreq.1 hreq.2
      · simp only [hreq, if_false] at h
        cases h
        exact .idle

lemma answerStep_move {id i : Nat} (h : answerStep env s id i = some s') : PubMove env s s' := by
  unfold answerStep at h
  split at h
  · rename_i hc _
    split at h
    · cases h
    · split_ifs at h
      cases h
      exact .resume id _ _ hc (by simp [CallPhase.transaction])
  · cases h

lemma failStep_move {e : IcebergError} {again : Bool}
    (h : failStep env s id e again = some s') : PubMove env s s' := by
  unfold failStep at h
  split at h
  · cases h
  · rename_i rq phase hc
    split at h
    · cases h
      exact .resume id _ _ hc (by simp [CallPhase.transaction])
    · rename_i tx _ htx
      split_ifs at h
      · cases h
        exact .resume id _ _ hc (by simpa [CallPhase.transaction] using htx)
      · cases h
        exact .resume id _ _ hc (by simp [CallPhase.transaction])
    · cases h

lemma next_move {op : PubOp F} (h : s.next env op = some s') : PubMove env s s' := by
  cases op with
  | prepare p =>
    simp only [PubState.next, prepareStep] at h
    split at h
    · cases h
    · rename_i t ht
      split_ifs at h with hok
      cases h
      exact .prepare p t ht hok.1 hok.2.1 hok.2.2
  | commitFlush intent =>
    simp only [PubState.next, commitFlushStep] at h
    split at h
    · cases h
    · rename_i p hp
      cases h
      exact .begin p (List.mem_of_getElem? hp)
  | bootstrap id nowMs => exact bootstrapStep_move h
  | attempt id snapshotId => exact attemptStep_move h
  | deliver message => exact deliverStep_move h
  | answer id index => exact answerStep_move h
  | fail id error again => exact failStep_move h
  | restart wr =>
    cases h
    exact .restart wr

/-- The append metadata that a snapshot carries. -/
def appendMetadata (codec : TextCodec) (snapshot : Snapshot) : Option (LedgerEntry WriterId) :=
  match snapshot.summary.find? writerIdProperty, snapshot.summary.find? generationMinProperty,
      snapshot.summary.find? generationMaxProperty with
  | some writer, some min, some max =>
    match codec.uuidParseStr writer, min.toNat?, max.toNat? with
    | .ok uuid, some lo, some hi => some ⟨⟨uuid⟩, lo, hi⟩
    | _, _, _ => none
  | _, _, _ => none

/-- A snapshot carries the writer's append metadata with `g` inside its range. -/
def carries (codec : TextCodec) (writer : WriterId) (g : Nat) (snapshot : Snapshot) : Bool :=
  (appendMetadata codec snapshot).any (LedgerEntry.covers writer g)

/-- The ledger entry of an identity. -/
def ledgerEntry (identity : AppendCommitIdentity) : LedgerEntry WriterId :=
  ⟨identity.writerId, identity.generations.lo, identity.generations.hi⟩

variable {req : CommitAppend F}

/-- The snapshot properties of an append hold its exact identity. -/
theorem snapshotProperties_find? {sm : Properties} (h : snapshotProperties env req = .ok sm) :
    ∀ p ∈ appendSnapshotIdentityProperties env.codec req.tableUuid req.identity,
      sm.find? p.1 = some p.2 := by
  intro p hp
  unfold snapshotProperties at h
  split at h
  · cases h
  · cases h
    refine OrdMap.find?_insertAll_of_mem _ ?_ (List.mem_append_left _ hp)
    simp only [appendSnapshotIdentityProperties, engineProperties, List.map_append, List.map_cons,
      List.map_nil]
    decide

lemma appendMetadata_eq (hcodec : env.codec.Lawful) {tu : Uuid}
    {idn : AppendCommitIdentity} {sn : Snapshot}
    (h : ∀ p ∈ appendSnapshotIdentityProperties env.codec tu idn, sn.summary.find? p.1 = some p.2) :
    appendMetadata env.codec sn = some (ledgerEntry idn) := by
  have hwtr := h (writerIdProperty, env.codec.uuidToString idn.writerId.uuid)
    (by simp [appendSnapshotIdentityProperties])
  have hmin := h (generationMinProperty, Nat.repr idn.generations.lo)
    (by simp [appendSnapshotIdentityProperties])
  have hmax := h (generationMaxProperty, Nat.repr idn.generations.hi)
    (by simp [appendSnapshotIdentityProperties])
  simp only [appendMetadata, hwtr, hmin, hmax, hcodec.parse_toString, Nat.toNat?_repr]
  rfl

/-- The snapshots of a table are the entries of a ledger, and its checkpoints the
watermarks. -/
structure Represents (codec : TextCodec) (metadata : TableMetadata)
    (ledger : WatermarkLedger WriterId) : Prop where
  entries_eq : metadata.snapshots.map (appendMetadata codec) = ledger.entries.map some
  mark_eq : ∀ table w own, parseWriterCheckpoint codec table metadata.properties w = .ok own →
    ledger.mark w = (own.map WriterCheckpoint.generation).getD 0

variable {md : TableMetadata}

lemma Represents.countP_le_one {codec : TextCodec} {ledger : WatermarkLedger WriterId}
    (h : Represents codec md ledger) (w : WriterId) (g : Nat) : md.snapshots.countP
    (carries codec w g) ≤ 1 := by
  calc md.snapshots.countP (carries codec w g) = (md.snapshots.map (appendMetadata codec)).countP
          (Option.any (LedgerEntry.covers w g)) := by rw [List.countP_map]; rfl
    _ = ledger.entries.countP (LedgerEntry.covers w g) := by
          rw [h.entries_eq, List.countP_map]; rfl
    _ ≤ 1 := ledger.once w g

/-- The generation of a writer's checkpoint. -/
def checkpointMark (codec : TextCodec) (metadata : TableMetadata) (w : WriterId) : Nat :=
  match parseWriterCheckpoint codec default metadata.properties w with
  | .ok (some c) => c.generation
  | _ => 0

/-- A table without snapshots represents the empty ledger over its checkpoints. -/
theorem Represents.ofMarks (codec : TextCodec) (h : md.snapshots = []) :
    ∃ ledger, Represents codec md ledger := by
  refine ⟨WatermarkLedger.ofMarks (checkpointMark codec md), ?_, ?_⟩
  · simp [h, WatermarkLedger.ofMarks]
  · intro table w own hown
    have hs := parseWriterCheckpoint_table hown default
    cases own with
    | none => simp [WatermarkLedger.ofMarks, checkpointMark, hs]
    | some c => simp [WatermarkLedger.ofMarks, checkpointMark, hs]

variable {tx : AppendTransaction}

lemma Represents.publish (hcdc : env.codec.Lawful) {ledger : WatermarkLedger WriterId}
    {layout : L} {nowMs : Int} {snapshotId : Int} (h : Represents env.codec md ledger)
    (hadm : Admitted env req md) (hbuild : buildAppendTransaction env req layout nowMs = .ok tx) :
    ∃ ledger, Represents env.codec ((tx.update md snapshotId).applied md) ledger := by
  obtain ⟨hpr, hcp, _⟩ := buildAppendTransaction_ok hbuild
  obtain ⟨own, hown, hab⟩ := hadm.above
  have hvd := AppendCommitIdentity.valid_of_validate hadm.identity_valid
  have hm : ledger.mark req.identity.writerId < req.identity.generations.lo := by
    rw [h.mark_eq _ _ own hown]
    cases own with
    | none => exact hvd.lo_pos
    | some c => exact hab c rfl
  refine ⟨ledger.publish (ledgerEntry req.identity) hm hvd.lo_le_hi, ?_, ?_⟩
  · have hen : appendMetadata env.codec (tx.update md snapshotId).snapshot =
        some (ledgerEntry req.identity) :=
      appendMetadata_eq hcdc (snapshotProperties_find? hpr)
    simp [AppendUpdate.applied, h.entries_eq, hen, WatermarkLedger.publish]
  · intro tbl w own' hown'
    obtain ⟨hkey, hdec⟩ :=
      checkpointProperty_ok hcdc hcp hadm.identity_valid tbl
    simp only [AppendUpdate.applied, AppendTransaction.update, hkey] at hown'
    rw [parseWriterCheckpoint_insert hcdc hdec] at hown'
    by_cases hw : w = req.identity.writerId
    · subst hw
      rw [if_pos rfl] at hown'
      cases hown'
      simp [WatermarkLedger.publish, ledgerEntry, WriterCheckpoint.new]
    · rw [if_neg hw] at hown'
      simpa [WatermarkLedger.publish, ledgerEntry, Function.update_of_ne hw] using
        h.mark_eq tbl w own' hown'

/-- The snapshot is the append of the intent, which passed every check that a call
makes before it publishes. -/
structure Origin (env : CatalogEnv F L P) (ident : TableIdent) (t : CatalogTable L)
    (p : PreparedFlush F) (snapshot : Snapshot) : Prop where
  table_eq : p.table = ident
  tableUuid_eq : t.metadata.tableUuid = p.tableUuid
  identity_valid : p.identity.validate ident p.tableUuid = .ok ()
  summary_eq : snapshotProperties env (buildCommitRequest p) = .ok snapshot.summary
  converts : convertDataFiles env ident t.layout p.dataFiles = .ok ()

/-- The checkpoint that an intent writes. -/
def CheckpointOf (p : PreparedFlush F) (c : WriterCheckpoint) : Prop :=
  c.epoch = p.writerEpoch ∧ c.generation = p.generations.hi ∧ c.commitId = p.commitId

structure TableInv (env : CatalogEnv F L P) (intents : List (PreparedFlush F))
    (ident : TableIdent) (t : CatalogTable L) : Prop where
  sound : mainVersion.Sound t.metadata
  origin : ∀ snapshot ∈ t.metadata.snapshots, ∃ p ∈ intents, Origin env ident t p snapshot ∧
    ∃ q ∈ intents, ∃ c, CheckpointOf q c ∧
      parseWriterCheckpoint env.codec ident t.metadata.properties p.writerId = .ok (some c)
  registry : t.metadata.snapshots ≠ [] →
    ∀ e ∈ t.metadata.properties.entries, ValidEntry env.codec ident e
  ledger : ∃ ledger, Represents env.codec t.metadata ledger

/-- An update on the wire was admitted for metadata that the table has had. -/
structure WireInv (env : CatalogEnv F L P) (intents : List (PreparedFlush F))
    (tables : TableIdent → Option (CatalogTable L)) (sent : Sent)
    (p : PreparedFlush F) (t : CatalogTable L) (base : TableMetadata)
    (tx : AppendTransaction) (nowMs snapshotId : Int) : Prop where
  intent_mem : p ∈ intents
  table_eq : p.table = sent.table
  table_found : tables sent.table = some t
  admitted : Admitted env (buildCommitRequest p) base
  built : buildAppendTransaction env (buildCommitRequest p) t.layout nowMs = .ok tx
  update_eq : sent.update = tx.update base snapshotId
  fresh : snapshotId ∉ mainVersion.issued base
  sound : mainVersion.Sound base
  behind : mainVersion.Behind base t.metadata

/-- A call works for an intent, with a transaction built for its table. -/
structure CallInv (env : CatalogEnv F L P) (intents : List (PreparedFlush F))
    (tables : TableIdent → Option (CatalogTable L)) (c : Call F) : Prop where
  request_eq : ∃ p ∈ intents, c.request = buildCommitRequest p
  built : ∀ tx, c.phase.transaction = some tx → ∃ t nowMs,
    tables c.request.table = some t ∧
      buildAppendTransaction env c.request t.layout nowMs = .ok tx

structure PubInv (env : CatalogEnv F L P) (s : PubState F L) : Prop where
  intents_nodup : (s.intents.map PreparedFlush.commitId).Nodup
  intent : ∀ p ∈ s.intents, IntentFits p ∧
    ∃ t, s.tables p.table = some t ∧ (env.icebergToTeoMetadata p.table t.layout).isOk
  uuid_inj : ∀ i j t u, s.tables i = some t → s.tables j = some u →
    t.metadata.tableUuid = u.metadata.tableUuid → i = j
  table : ∀ ident t, s.tables ident = some t → TableInv env s.intents ident t
  wire : ∀ sent ∈ s.wire, ∃ p t base tx nowMs snapshotId,
    WireInv env s.intents s.tables sent p t base tx nowMs snapshotId
  call : ∀ id c, s.calls id = some c → CallInv env s.intents s.tables c
  commits_eq : ∀ ident t, s.tables ident = some t →
    (s.commits.filter fun c => c.1 = t.metadata.tableUuid).map Prod.snd = t.metadata.snapshots
  commits_table : ∀ c ∈ s.commits, ∃ ident t,
    s.tables ident = some t ∧ t.metadata.tableUuid = c.1

lemma PubInv.start (h : s.Start) : PubInv env s where
  intents_nodup := by simp [h.intents_eq]
  intent := by simp [h.intents_eq]
  uuid_inj := h.uuid_inj
  table := by
    intro ident t ht
    obtain ⟨hn, hcur⟩ := h.noSnapshot ident t ht
    exact {
        sound := by
          intro k hk
          simp [mainVersion, hcur] at hk
        origin := by simp [hn]
        registry := fun hne => absurd hn hne
        ledger := Represents.ofMarks env.codec hn }
  wire := by simp [h.wire_eq]
  call := by
    intro id c hc
    rw [h.calls_eq id] at hc
    cases hc
  commits_eq := by
    intro ident t ht
    simp [h.commits_eq, (h.noSnapshot ident t ht).1]
  commits_table := by simp [h.commits_eq]

lemma PubInv.intent_eq (h : PubInv env s) {p q : PreparedFlush F} (hp : p ∈ s.intents)
    (hq : q ∈ s.intents) (heq : p.commitId = q.commitId) : p = q :=
  List.inj_on_of_nodup_map h.intents_nodup hp hq heq

/-- A new call, or a new phase of one, keeps everything else. -/
theorem PubInv.setCall (h : PubInv env s) {id n : Nat} {c : Call F}
    (hc : CallInv env s.intents s.tables c) :
    PubInv env { s.setCall id c with callCount := n } := by
  refine { h with call := ?_ }
  intro j d hd
  by_cases hj : j = id
  · subst hj
    have hcd : c = d := by simpa [PubState.setCall] using hd
    exact hcd ▸ hc
  · exact h.call j d (by simpa [PubState.setCall, Function.update_of_ne hj] using hd)

lemma PubInv.restart (h : PubInv env s) (wr : WriterId) :
    PubInv env { s with calls := fun id => (s.calls id).map (Call.afterRestart wr) } := by
  refine { h with call := ?_ }
  intro id c hc
  obtain ⟨d, hd, rfl⟩ := Option.map_eq_some_iff.mp hc
  have hold := h.call id d hd
  unfold Call.afterRestart
  split_ifs
  · split
    · exact hold
    · exact ⟨hold.request_eq, by simp [CallPhase.transaction]⟩
  · exact hold

variable {t : CatalogTable L}

lemma TableInv.mono {its more : List (PreparedFlush F)} {ident : TableIdent}
    (h : TableInv env its ident t) (hsub : its ⊆ more) : TableInv env more ident t := by
  refine { h with origin := ?_ }
  intro sn hmem
  obtain ⟨p, hp, hor, q, hq, hc⟩ := h.origin sn hmem
  exact ⟨p, hsub hp, hor, q, hsub hq, hc⟩

variable {p : PreparedFlush F}

lemma PubInv.prepare (h : PubInv env s) (ht : s.tables p.table = some t)
    (hnew : ∀ q ∈ s.intents, q.commitId ≠ p.commitId) (hf : IntentFits p)
    (hdom : (env.icebergToTeoMetadata p.table t.layout).isOk) :
    PubInv env { s with intents := s.intents ++ [p] } := by
  refine { h with
    intents_nodup := ?_
    intent := ?_
    table := fun ident u hu => (h.table ident u hu).mono (List.subset_append_left _ _)
    wire := ?_
    call := ?_ }
  · rw [List.map_append, List.nodup_append]
    refine ⟨h.intents_nodup, by simp, ?_⟩
    intro a ha b hb
    obtain ⟨q, hq, rfl⟩ := List.mem_map.mp ha
    obtain rfl : b = p.commitId := by simpa using hb
    exact hnew q hq
  · intro q hq
    rcases mem_concat_iff.mp hq with hq | rfl
    · exact h.intent q hq
    · exact ⟨hf, t, ht, hdom⟩
  · intro sent hs
    obtain ⟨q, u, base, tx, nowMs, snapshotId, hw⟩ := h.wire sent hs
    exact ⟨q, u, base, tx, nowMs, snapshotId,
      { hw with intent_mem := List.mem_append_left _ hw.intent_mem }⟩
  · intro id c hc
    obtain ⟨⟨q, hq, heq⟩, hbuilt⟩ := h.call id c hc
    exact ⟨⟨q, List.mem_append_left _ hq, heq⟩, hbuilt⟩

/-- An admitted attempt sends an update for the metadata it has loaded. -/
theorem PubInv.send (h : PubInv env s) {snapshotId : Int}
    (hc : s.calls id = some ⟨req, .attempting tx⟩) (ht : s.tables req.table = some t)
    (hval : validate env req t.metadata = .ok ())
    (hfr : snapshotId ∉ mainVersion.issued t.metadata) :
    PubInv env { s.setCall id ⟨req, .waiting tx s.wire.length⟩ with
      wire := s.wire ++ [⟨id, req.table, tx.update t.metadata snapshotId⟩] } := by
  have hold := h.call id _ hc
  obtain ⟨p, hp, rfl⟩ : ∃ p ∈ s.intents, req = buildCommitRequest p := hold.request_eq
  obtain ⟨u, nowMs, hu, hbuild⟩ := hold.built tx rfl
  obtain rfl : t = u := Option.some.inj (ht.symm.trans hu)
  have hset : PubInv env { s.setCall id ⟨buildCommitRequest p, .waiting tx s.wire.length⟩ with
      callCount := s.callCount } :=
    h.setCall ⟨hold.request_eq, fun tx' htx' => hold.built tx' htx'⟩
  refine { hset with wire := ?_ }
  intro sent hs
  rcases mem_concat_iff.mp hs with hs | rfl
  · exact h.wire sent hs
  · exact ⟨p, t, t.metadata, tx, nowMs, snapshotId, {
        intent_mem := hp
        table_eq := rfl
        table_found := ht
        admitted := admitted_of_validate hval
        built := hbuild
        update_eq := rfl
        fresh := hfr
        sound := (h.table _ t ht).sound
        behind := Versioning.Behind.refl _ }⟩

variable {its : List (PreparedFlush F)} {nowMs snapshotId : Int}

/-- A table stays well formed when an admitted append is applied to it. -/
theorem TableInv.applied (hcdc : env.codec.Lawful) {ident : TableIdent}
    (h : TableInv env its ident t) (hp : p ∈ its) (hid : p.table = ident)
    (hadm : Admitted env (buildCommitRequest p) t.metadata)
    (hbui : buildAppendTransaction env (buildCommitRequest p) t.layout nowMs = .ok tx)
    (hfr : snapshotId ∉ mainVersion.issued t.metadata) :
    TableInv env its ident
      { t with metadata := (tx.update t.metadata snapshotId).applied t.metadata } := by
  subst hid
  obtain ⟨hpr, hcp, hcon⟩ := buildAppendTransaction_ok hbui
  obtain ⟨hkey, hdec⟩ :=
    checkpointProperty_ok hcdc hcp hadm.identity_valid p.table
  have hvd := AppendCommitIdentity.valid_of_validate hadm.identity_valid
  have hlk : ∀ v, parseWriterCheckpoint env.codec p.table
      ((tx.update t.metadata snapshotId).applied t.metadata).properties v =
        if v = p.writerId then .ok (some (WriterCheckpoint.new p.writerEpoch p.generations.hi
          p.commitId nowMs))
        else parseWriterCheckpoint env.codec p.table t.metadata.properties v := by
    intro v
    simp only [AppendUpdate.applied, AppendTransaction.update, hkey]
    exact parseWriterCheckpoint_insert hcdc hdec v
  have hown : CheckpointOf p
      (WriterCheckpoint.new p.writerEpoch p.generations.hi p.commitId nowMs) :=
    ⟨rfl, rfl, rfl⟩
  constructor
  · exact (AppendUpdate.follows hfr).sound
  · intro sn hmem
    rcases mem_concat_iff.mp hmem with hmem | rfl
    · obtain ⟨q, hq, hor, r, hr, c, hrc, hps⟩ := h.origin sn hmem
      refine ⟨q, hq, { hor with }, ?_⟩
      rw [hlk]
      by_cases hw : q.writerId = p.writerId
      · exact ⟨p, hp, _, hown, by rw [if_pos hw]⟩
      · exact ⟨r, hr, c, hrc, by rw [if_neg hw, hps]⟩
    · refine ⟨p, hp, ⟨rfl, hadm.tableUuid_eq, hadm.identity_valid, hpr, hcon⟩, p, hp, _, hown, ?_⟩
      rw [hlk, if_pos rfl]
  · intro _
    simp only [AppendUpdate.applied, AppendTransaction.update, hkey]
    exact validEntries_insert hcdc hvd.writerId_ne_nil hdec hadm.registry_valid
  · obtain ⟨ledger, hled⟩ := h.ledger
    exact hled.publish hcdc hadm hbui

/-- A message whose requirements hold meets the metadata it was admitted for. -/
theorem WireInv.base_eq {tables : TableIdent → Option (CatalogTable L)} {sent : Sent}
    {base : TableMetadata} (h : WireInv env its tables sent p t base tx nowMs snapshotId)
    (hm : t.metadata.currentSnapshotId = sent.update.requireMain) : base = t.metadata := by
  apply h.behind.eq_of_version
  rw [h.update_eq] at hm
  exact hm.symm

/-- Tables keep their layout and incarnation, and move on under new references. -/
def Evolves (tables tables' : TableIdent → Option (CatalogTable L)) : Prop :=
  ∀ ident u, tables ident = some u → ∃ u', tables' ident = some u' ∧ u'.layout = u.layout ∧
    u'.metadata.tableUuid = u.metadata.tableUuid ∧
    (u'.metadata = u.metadata ∨ mainVersion.Follows u.metadata u'.metadata)

lemma CallInv.evolves {tables tables' : TableIdent → Option (CatalogTable L)} {c : Call F}
    (h : CallInv env its tables c) (hev : Evolves tables tables') : CallInv env its tables' c := by
  refine ⟨h.request_eq, ?_⟩
  intro tx htx
  obtain ⟨t, nowMs, ht, hbuild⟩ := h.built tx htx
  obtain ⟨t', ht', hlay, _, _⟩ := hev _ t ht
  exact ⟨t', nowMs, ht', hlay ▸ hbuild⟩

lemma WireInv.evolves {tables tables' : TableIdent → Option (CatalogTable L)} {sent : Sent}
    {base : TableMetadata} (h : WireInv env its tables sent p t base tx nowMs snapshotId)
    (hev : Evolves tables tables') :
    ∃ t', WireInv env its tables' sent p t' base tx nowMs snapshotId := by
  obtain ⟨t', ht', hlay, _, hmd⟩ := hev _ t h.table_found
  refine ⟨t', { h with table_found := ht', built := hlay ▸ h.built, behind := ?_ }⟩
  obtain heq | hfol := hmd
  · rw [heq]
    exact h.behind
  · exact h.behind.follows h.sound hfol

section

variable {sent : Sent} {t : CatalogTable L} {p : PreparedFlush F} {base : TableMetadata}
  {tx : AppendTransaction} {nowMs snapshotId : Int}

/-- The tables after an update has been applied to one of them. -/
def afterUpdate (s : PubState F L) (sent : Sent) (t : CatalogTable L) :
    TableIdent → Option (CatalogTable L) :=
  Function.update s.tables sent.table (some { t with metadata := sent.update.applied t.metadata })

lemma afterUpdate_self : afterUpdate s sent t sent.table =
    some { t with metadata := sent.update.applied t.metadata } :=
  Function.update_self ..

lemma afterUpdate_of_ne {ident : TableIdent} (h : ident ≠ sent.table) :
    afterUpdate s sent t ident = s.tables ident :=
  Function.update_of_ne h ..

lemma evolves_afterUpdate (ht : s.tables sent.table = some t)
    (hfr : sent.update.snapshot.snapshotId ∉ mainVersion.issued t.metadata) :
    Evolves s.tables (afterUpdate s sent t) := by
  intro ident u hu
  by_cases hid : ident = sent.table
  · subst hid
    obtain rfl : t = u := Option.some.inj (ht.symm.trans hu)
    exact ⟨_, afterUpdate_self, rfl, rfl, Or.inr (AppendUpdate.follows hfr)⟩
  · exact ⟨u, by rw [afterUpdate_of_ne hid, hu], rfl, rfl, Or.inl rfl⟩

lemma afterUpdate_cases {ident : TableIdent} {u : CatalogTable L}
    (hu : afterUpdate s sent t ident = some u) :
    ident = sent.table ∧ u = { t with metadata := sent.update.applied t.metadata } ∨
      ident ≠ sent.table ∧ s.tables ident = some u := by
  by_cases hid : ident = sent.table
  · subst hid
    rw [afterUpdate_self] at hu
    exact Or.inl ⟨rfl, (Option.some.inj hu).symm⟩
  · rw [afterUpdate_of_ne hid] at hu
    exact Or.inr ⟨hid, hu⟩

/-- Every table afterwards stems from one before with the same incarnation. -/
theorem afterUpdate_uuid (ht : s.tables sent.table = some t) {ident : TableIdent}
    {u : CatalogTable L} (hu : afterUpdate s sent t ident = some u) :
    ∃ v, s.tables ident = some v ∧ v.metadata.tableUuid = u.metadata.tableUuid := by
  obtain ⟨rfl, rfl⟩ | ⟨_, hu⟩ := afterUpdate_cases hu
  · exact ⟨t, ht, rfl⟩
  · exact ⟨u, hu, rfl⟩

lemma PubInv.deliver (hcodec : env.codec.Lawful) (h : PubInv env s)
    {answers : List (Nat × TableMetadata)} (hs : sent ∈ s.wire)
    (ht : s.tables sent.table = some t)
    (hm : t.metadata.currentSnapshotId = sent.update.requireMain) :
    PubInv env { s with
      tables := afterUpdate s sent t
      answers := answers
      commits := s.commits ++ [(t.metadata.tableUuid, sent.update.snapshot)] } := by
  obtain ⟨p, u, base, tx, nowMs, snapshotId, hw⟩ := h.wire sent hs
  obtain rfl : t = u := Option.some.inj (ht.symm.trans hw.table_found)
  obtain rfl := hw.base_eq hm
  have hev : Evolves s.tables (afterUpdate s sent t) := by
    apply evolves_afterUpdate ht
    rw [hw.update_eq]
    exact hw.fresh
  constructor
  · exact h.intents_nodup
  · intro q hq
    obtain ⟨hf, v, hv, hdom⟩ := h.intent q hq
    obtain ⟨v', hv', hlay, _, _⟩ := hev _ v hv
    exact ⟨hf, v', hv', by rw [hlay]; exact hdom⟩
  · intro i j a b ha hb heq
    obtain ⟨a', ha', hauuid⟩ := afterUpdate_uuid ht ha
    obtain ⟨b', hb', hbuuid⟩ := afterUpdate_uuid ht hb
    exact h.uuid_inj i j a' b' ha' hb' (by rw [hauuid, hbuuid, heq])
  · intro ident v hv
    obtain ⟨rfl, rfl⟩ | ⟨_, hv⟩ := afterUpdate_cases hv
    · rw [hw.update_eq]
      exact (h.table _ t ht).applied hcodec hw.intent_mem hw.table_eq hw.admitted hw.built hw.fresh
    · exact h.table ident v hv
  · intro o hot
    obtain ⟨q, v, base', tx', nowMs', sid', hw'⟩ := h.wire o hot
    obtain ⟨v', hv'⟩ := hw'.evolves hev
    exact ⟨q, v', base', tx', nowMs', sid', hv'⟩
  · exact fun id c hc => (h.call id c hc).evolves hev
  · intro ident v hv
    rw [List.filter_append, List.map_append]
    obtain ⟨rfl, rfl⟩ | ⟨hid, hv⟩ := afterUpdate_cases hv
    · exact congrArg₂ (· ++ ·) (h.commits_eq _ t ht) (by simp [AppendUpdate.applied])
    · have hne : t.metadata.tableUuid ≠ v.metadata.tableUuid := fun heq =>
        hid (h.uuid_inj ident sent.table v t hv ht heq.symm)
      simp [h.commits_eq ident v hv, hne]
  · intro c hc
    rcases mem_concat_iff.mp hc with hc | rfl
    · obtain ⟨ident, v, hv, hu⟩ := h.commits_table c hc
      obtain ⟨v', hv', _, hsame, _⟩ := hev ident v hv
      exact ⟨ident, v', hv', hsame.trans hu⟩
    · exact ⟨sent.table, _, afterUpdate_self, rfl⟩

end

lemma PubInv.move (hcodec : env.codec.Lawful) (h : PubInv env s) (hm : PubMove env s s') :
    PubInv env s' := by
  cases hm with
  | prepare p t ht hnew hf hdom => exact h.prepare ht hnew hf hdom
  | begin p hp => exact h.setCall ⟨⟨p, hp, rfl⟩, by simp [CallPhase.transaction]⟩
  | build id req t nowMs tx hc ht hbuild =>
    refine h.setCall ⟨(h.call id _ hc).request_eq, ?_⟩
    intro tx' htx'
    obtain rfl : tx = tx' := Option.some.inj htx'
    exact ⟨t, nowMs, ht, hbuild⟩
  | resume id c phase hc hph =>
    have hold := h.call id c hc
    exact h.setCall ⟨hold.request_eq, fun tx htx => hold.built tx (hph tx htx)⟩
  | send id req tx t snapshotId hc ht hval hfr =>
    exact h.send hc ht hval hfr
  | deliver message sent t hs ht huuid hmain => exact h.deliver hcodec hs ht hmain
  | restart wr => exact h.restart wr
  | idle => exact h

lemma pubInv_of_reachable (hcodec : env.codec.Lawful) (run : (publication env).Reachable s) :
    PubInv env s :=
  run.invariant (fun _ => PubInv.start) fun _ _ _ h hn => h.move hcodec (next_move hn)

/-- A generation of a writer is in at most one snapshot ever committed to an
incarnation. -/
theorem PubInv.commits_once (h : PubInv env s) (uuid : Uuid) (w : WriterId) (g : Nat) :
    s.commits.countP (fun c => decide (c.1 = uuid) && carries env.codec w g c.2) ≤ 1 := by
  by_cases hfnd : ∃ c ∈ s.commits, c.1 = uuid
  · obtain ⟨c, hc, rfl⟩ := hfnd
    obtain ⟨ident, t, ht, hu⟩ := h.commits_table c hc
    obtain ⟨ledger, hled⟩ := (h.table ident t ht).ledger
    calc s.commits.countP (fun d => decide (d.1 = c.1) && carries env.codec w g d.2)
        = ((s.commits.filter fun d => d.1 = t.metadata.tableUuid).map Prod.snd).countP
            (carries env.codec w g) := by
          rw [List.countP_map, List.countP_filter, hu]
          exact List.countP_congr fun d _ => by simp [and_comm]
      _ = t.metadata.snapshots.countP (carries env.codec w g) := by rw [h.commits_eq ident t ht]
      _ ≤ 1 := hled.countP_le_one w g
  · have hzero : s.commits.countP
        (fun c => decide (c.1 = uuid) && carries env.codec w g c.2) = 0 := by
      rw [List.countP_eq_zero]
      intro c hc hb
      have hu : c.1 = uuid := of_decide_eq_true (Bool.and_elim_left hb)
      exact hfnd ⟨c, hc, hu⟩
    omega

end

end TeoDB.Catalog

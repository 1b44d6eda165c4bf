import TeoDB.Ingest.Buffer.Fence
import TeoDB.Node.Ddl

/-!
# Eviction by CREATE and acknowledged rows

A `CREATE TABLE` statement evicts the buffer of its name after the table exists in
the catalog. An ingest that lands in between registers a buffer of the new table,
and its acknowledged rows go with that buffer: they are neither readable nor flushed,
and the next buffer hands out their generations again.

When nothing of the table has been acknowledged and no request holds the buffer at an eviction,
every acknowledged row is committed or in the registered buffer. An empty buffer is not enough: a
request that loaded the table before its rows were flushed would register the old checkpoint.

## Implementation notes

Flushes call the registered buffers. A buffer is told of a commit after the catalog has published
what is in flight. `committed` has the published batches.
-/

namespace TeoDB.Node

open TeoDB.Core Lib Lib.MachineInt Storage.Wal Ingest.Buffer Ingest.Service

variable {F α : Type}

/-- The buffer that a request in some phase refers to. -/
def RequestPhase.buffer? : RequestPhase α → Option Nat
  | .holding buffer => some buffer
  | .appending buffer _ _ => some buffer
  | _ => none

/-- Everything but drops and crashes. -/
def NodeOp.createOrIngest : NodeOp α → Bool
  | .dropTable _ _ | .tombstone _ _ _ _ | .crash _ => false
  | _ => true

/-- A table incarnation, a batch and its generation. -/
abbrev BatchKey := Uuid × Uuid × Nat

def batchKey (tableUuid : Uuid) (entry : BufferEntry α) : BatchKey :=
  (tableUuid, entry.batchId, entry.generation)

/-- A node with the batches that its flushes have published. -/
structure FlushingNode (F α : Type) where
  node : NodeState F α
  committed : List BatchKey

/-- A step of the node, a call of a flush on the buffer of a table, or a publication of what the
buffer has in flight. -/
inductive FlushingOp (F α : Type) where
  | node (op : NodeOp α)
  | flush (table : TableIdent) (op : FlushOp F)
  | publish (table : TableIdent) (metadata : TableMetadata)

namespace FlushingNode

def registered (s : FlushingNode F α) (table : TableIdent) : Option (Nat × TableBuffer F α) :=
  (s.node.registry table).bind fun buffer => s.node.heap[buffer]?.map fun t => (buffer, t)

/-- The table is of the buffer's incarnation, the generations are above the writer's checkpoint,
and the last one becomes the checkpoint. -/
def Publishes (config : NodeConfig) (table : TableIdent) (old metadata : TableMetadata)
    (t : TableBuffer F α) : Prop :=
  old.tableUuid = t.metadata.tableUuid ∧ metadata.tableUuid = old.tableUuid ∧
    (loadedGeneration config table metadata).toOption = (generations t.state.inFlight).max? ∧
    ∃ checkpoint ∈ (loadedGeneration config table old).toOption,
      ∀ generation ∈ generations t.state.inFlight, checkpoint < generation

instance (config : NodeConfig) (table : TableIdent) (old metadata : TableMetadata)
    (t : TableBuffer F α) : Decidable (Publishes config table old metadata t) := by
  unfold Publishes
  infer_instance

/-- The catalog commits what a buffer has in flight. -/
def publish (s : FlushingNode F α) (table : TableIdent) (metadata : TableMetadata)
    (t : TableBuffer F α) : FlushingNode F α where
  node := { s.node with
    catalog := fun other => if other = table then some metadata else s.node.catalog other }
  committed := s.committed ++ t.state.inFlight.map (batchKey t.metadata.tableUuid)

/-- A buffer is told of a commit only when the catalog has what is in flight. -/
def Answers (s : FlushingNode F α) (t : TableBuffer F α) : FlushOp F → Prop
  | .markCommitted _ metadata _ _ =>
    metadata.tableUuid = t.metadata.tableUuid ∧
      ∀ entry ∈ t.state.inFlight, batchKey t.metadata.tableUuid entry ∈ s.committed
  | _ => True

instance (s : FlushingNode F α) (t : TableBuffer F α) (op : FlushOp F) :
    Decidable (s.Answers t op) := by
  unfold Answers
  split <;> infer_instance

def next [BEq F] (config : NodeConfig) (s : FlushingNode F α) :
    FlushingOp F α → Option (FlushingNode F α)
  | .node op =>
    if op.createOrIngest then (s.node.next config op).map fun node => { s with node } else none
  | .flush table op =>
    match s.registered table with
    | some (buffer, t) =>
      if s.Answers t op then some { s with node := s.node.setBuffer buffer (t.applyFlush op).1 }
      else none
    | none => none
  | .publish table metadata =>
    match s.registered table, s.node.catalog table with
    | some (_, t), some old =>
      if Publishes config table old metadata t then some (s.publish table metadata t) else none
    | _, _ => none

/-- Runs of a node on which no table is dropped and that does not crash. -/
def createMachine (F α : Type) [BEq F] (config : NodeConfig) :
    Machine (FlushingNode F α) (FlushingOp F α) where
  start s := (NodeState.machine F α config).start s.node ∧ s.committed = []
  next := next config

/-- Every acknowledged batch of a table that exists is committed or in the registered buffer of the
table, and no two acknowledged batches have the same place in the order of writes. -/
structure NoneStranded (s : FlushingNode F α) : Prop where
  held : ∀ batch ∈ s.node.acked,
    (batch.tableUuid, batch.receipt.batchId, batch.receipt.generation) ∉ s.committed →
    ∀ metadata, s.node.catalog batch.table = some metadata →
    metadata.tableUuid = batch.tableUuid →
    ∃ buffer t, s.node.registry batch.table = some buffer ∧ s.node.heap[buffer]? = some t ∧
      ∃ entry ∈ t.state.pending ++ t.state.inFlight,
        entry.batchId = batch.receipt.batchId ∧ entry.generation = batch.receipt.generation
  distinct : (s.node.acked.map fun batch =>
    (batch.tableUuid, batch.receipt.writerId, batch.receipt.generation)).Nodup

/-- A registered buffer is evicted only before anything of its table is acknowledged, and while no
request holds it. -/
def EvictsUnused (s : FlushingNode F α) : FlushingOp F α → Prop
  | .node (.evict index) =>
    match s.node.statements[index]? with
    | some (.create table) =>
      match s.node.registry table with
      | none => True
      | some buffer =>
        (∀ batch ∈ s.node.acked, batch.table ≠ table) ∧
          ∀ request ∈ s.node.requests, request.phase.buffer? ≠ some buffer
    | _ => True
  | _ => True

end FlushingNode

namespace NodeState

/-- The reservation that a request holds, if it is for a table. -/
def reservationFor (table : TableIdent) (request : Request α) :
    Option (Reservation × RecordBatch α) :=
  if request.table = table then
    request.phase.pending?.map fun pending => (pending.reservation, pending.record.batch)
  else none

/-- The reservations that requests for a table hold. -/
def waitingFor (requests : List (Request α)) (table : TableIdent) :
    List (Reservation × RecordBatch α) :=
  requests.filterMap (reservationFor table)

/-- The acknowledged batches of a table, by identifier and generation. -/
def ackedOf (acked : List AckedBatch) (table : TableIdent) : List (Uuid × Nat) :=
  (acked.filter fun batch => batch.table = table).map fun batch =>
    (batch.receipt.batchId, batch.receipt.generation)

section

variable (config : NodeConfig) (cm : List BatchKey) (s : NodeState F α)

/-- A registered buffer accounts for the requests and acknowledgements of its table. -/
structure Serves (table : TableIdent) (t : TableBuffer F α) : Prop where
  ident : t.ident = table
  uuid : ∃ metadata, s.catalog table = some metadata ∧
    t.metadata.tableUuid = metadata.tableUuid
  ledger : ∃ inserted committed,
    FenceRun.Ledger ⟨t, waitingFor s.requests table, inserted, committed⟩ ∧
    inserted.map (fun entry => (entry.batchId, entry.generation)) = ackedOf s.acked table ∧
    ∀ entry ∈ committed, batchKey t.metadata.tableUuid entry ∈ cm

/-- The table that a request has loaded is still of its incarnation. -/
def Loaded (table : TableIdent) (metadata : TableMetadata) (generation : Nat) : Prop :=
  (∃ current, s.catalog table = some current ∧ metadata.tableUuid = current.tableUuid) ∧
    generation ≤ u64Max

/-- The invariant of a node that creates, ingests and flushes. -/
structure Attached : Prop where
  known : ∀ table metadata, s.catalog table = some metadata → metadata.tableUuid ∈ s.created
  unique : ∀ table table' metadata metadata', s.catalog table = some metadata →
    s.catalog table' = some metadata' → metadata.tableUuid = metadata'.tableUuid → table = table'
  holders : ∀ request ∈ s.requests, ∀ buffer ∈ request.phase.buffer?,
    s.registry request.table = some buffer
  loads : ∀ request ∈ s.requests, ∀ metadata generation,
    request.phase = .loaded metadata generation → s.Loaded request.table metadata generation
  serves : ∀ table buffer, s.registry table = some buffer →
    ∃ t, s.heap[buffer]? = some t ∧ s.Serves cm table t
  unserved : ∀ table, s.registry table = none → ackedOf s.acked table = []
  acked : ∀ batch ∈ s.acked, batch.receipt.writerId = config.writerId ∧
    ∃ metadata, s.catalog batch.table = some metadata ∧ metadata.tableUuid = batch.tableUuid
  statements : ∀ statement ∈ s.statements, ∃ table, statement = .create table

end

section

variable {reqs : List (Request α)} {i : Nat} {req : Request α} {tbl : TableIdent}

lemma waitingFor_cons (req : Request α) (reqs : List (Request α)) (tbl : TableIdent) :
    waitingFor (req :: reqs) tbl = (reservationFor tbl req).toList ++ waitingFor reqs tbl := by
  rw [waitingFor, List.filterMap_cons]
  cases reservationFor tbl req <;> rfl

lemma waitingFor_eraseIdx (h : reqs[i]? = some req) (tbl : TableIdent) :
    (waitingFor reqs tbl).Perm
      ((reservationFor tbl req).toList ++ waitingFor (reqs.eraseIdx i) tbl) := by
  rw [← waitingFor_cons]
  exact (FenceRun.perm_of_getElem? h).filterMap _

lemma reservationFor_of_none (h : req.phase.pending? = none) (tbl : TableIdent) :
    reservationFor tbl req = none := by
  simp [reservationFor, h]

lemma reservationFor_other (h : req.table ≠ tbl) : reservationFor tbl req = none := by
  simp [reservationFor, h]

lemma waitingFor_finish (h : reqs[i]? = some req)
    (hph : req.phase.pending? = none) (tbl : TableIdent) :
    (waitingFor (reqs.eraseIdx i) tbl).Perm (waitingFor reqs tbl) := by
  have hp := waitingFor_eraseIdx h tbl
  rw [reservationFor_of_none hph] at hp
  exact hp.symm

/-- A request may change its phase and keep what it waits for. -/
lemma waitingFor_goOn (h : reqs[i]? = some req) {ph : RequestPhase α}
    (hph : ph.pending? = req.phase.pending?) (tbl : TableIdent) :
    (waitingFor ({ req with phase := ph } :: reqs.eraseIdx i) tbl).Perm
      (waitingFor reqs tbl) := by
  have hs : reservationFor tbl { req with phase := ph } = reservationFor tbl req := by
    simp only [reservationFor, hph]
  rw [waitingFor_cons, hs]
  exact (waitingFor_eraseIdx h tbl).symm

/-- Requests for other tables do not notice a request that leaves or changes. -/
lemma waitingFor_eraseIdx_other (h : reqs[i]? = some req) (hot : tbl ≠ req.table) :
    (waitingFor (reqs.eraseIdx i) tbl).Perm (waitingFor reqs tbl) := by
  have hp := waitingFor_eraseIdx h tbl
  rw [reservationFor_other hot.symm] at hp
  exact hp.symm

lemma waitingFor_goOn_other (h : reqs[i]? = some req) {ph : RequestPhase α}
    (hot : tbl ≠ req.table) :
    (waitingFor ({ req with phase := ph } :: reqs.eraseIdx i) tbl).Perm
      (waitingFor reqs tbl) := by
  have hn : reservationFor tbl { req with phase := ph } = none :=
    reservationFor_other (Ne.symm hot)
  rw [waitingFor_cons, hn]
  exact waitingFor_eraseIdx_other h hot

end

section

variable {config : NodeConfig} {cm : List BatchKey} {s s' : NodeState F α}

lemma Serves.of_perm {table : TableIdent} {t : TableBuffer F α} (h : s.Serves cm table t)
    (hcat : s'.catalog table = s.catalog table)
    (hwt : (waitingFor s'.requests table).Perm (waitingFor s.requests table))
    (hak : ackedOf s'.acked table = ackedOf s.acked table) : s'.Serves cm table t := by
  obtain ⟨ins, com, hled, hins, hcom⟩ := h.ledger
  refine ⟨h.ident, ?_, ins, com, hled.of_held_perm hwt, ?_, hcom⟩
  · rw [hcat]
    exact h.uuid
  · rw [hak]
    exact hins

section

variable (h : s.Attached config cm)

include h

/-- Requests may come, go and change as long as their reservations stay. -/
lemma Attached.of_requests {requests : List (Request α)} {log : NodeLog α}
    (hwt : ∀ table, (waitingFor requests table).Perm (waitingFor s.requests table))
    (hnew : ∀ request ∈ requests, request ∈ s.requests ∨
      (∀ buf ∈ request.phase.buffer?, s.registry request.table = some buf) ∧
        ∀ md gen, request.phase = .loaded md gen → s.Loaded request.table md gen) :
    Attached config cm { s with requests := requests, log := log } where
  known := h.known
  unique := h.unique
  holders := by
    intro request hreq
    rcases hnew request hreq with hold | hnew
    · exact h.holders request hold
    · exact hnew.1
  loads := by
    intro request hreq
    rcases hnew request hreq with hold | hnew
    · exact h.loads request hold
    · exact hnew.2
  serves := by
    intro table buf hreg
    obtain ⟨t, hh, hsv⟩ := h.serves table buf hreg
    exact ⟨t, hh, hsv.of_perm rfl (hwt table) rfl⟩
  unserved := h.unserved
  acked := h.acked
  statements := h.statements

lemma Attached.finish {index : Nat} {request : Request α}
    (hreq : s.requests[index]? = some request) (hph : request.phase.pending? = none) :
    (s.finish index).Attached config cm :=
  h.of_requests (waitingFor_finish hreq hph) fun _ hr => Or.inl (List.mem_of_mem_eraseIdx hr)

lemma Attached.goOn {index : Nat} {request : Request α}
    (hreq : s.requests[index]? = some request) {ph : RequestPhase α} {log : NodeLog α}
    (hpd : ph.pending? = request.phase.pending?)
    (hbuf : ∀ buf ∈ ph.buffer?, s.registry request.table = some buf)
    (hl : ∀ md gen, ph = .loaded md gen → s.Loaded request.table md gen) :
    Attached config cm ({ s with log := log }.goOn index request ph) := by
  apply h.of_requests (waitingFor_goOn hreq hpd)
  intro r hr
  rcases List.mem_cons.mp hr with rfl | hr
  · exact Or.inr ⟨hbuf, hl⟩
  · exact Or.inl (List.mem_of_mem_eraseIdx hr)

/-- The catalog may come to know more, of the same incarnations. -/
lemma Attached.of_catalog {catalog : TableIdent → Option TableMetadata} {created : List Uuid}
    {cm' : List BatchKey} (hcm : cm ⊆ cm')
    (hcat : ∀ o md, s.catalog o = some md →
      ∃ md', catalog o = some md' ∧ md.tableUuid = md'.tableUuid)
    (hkn : ∀ o md, catalog o = some md → md.tableUuid ∈ created)
    (hun : ∀ o o' md md', catalog o = some md → catalog o' = some md' →
      md.tableUuid = md'.tableUuid → o = o') :
    Attached config cm' { s with catalog := catalog, created := created } := by
  refine ⟨hkn, hun, h.holders, ?_, ?_, h.unserved, ?_, h.statements⟩
  · intro request hreq md gen hph
    obtain ⟨⟨cur, hcur, hu⟩, hle⟩ := h.loads request hreq md gen hph
    obtain ⟨md', hmd', hu'⟩ := hcat _ _ hcur
    exact ⟨⟨md', hmd', hu.trans hu'⟩, hle⟩
  · intro o buf hreg
    obtain ⟨t, hh, hid, ⟨md, hmd, hu⟩, ins, com, hled, hins, hcom⟩ := h.serves o buf hreg
    obtain ⟨md', hmd', hu'⟩ := hcat _ _ hmd
    exact ⟨t, hh, hid, ⟨md', hmd', hu.trans hu'⟩, ins, com, hled, hins,
      fun e he => hcm (hcom e he)⟩
  · intro bt hbt
    obtain ⟨hwtr, md, hmd, hu⟩ := h.acked bt hbt
    obtain ⟨md', hmd', hu'⟩ := hcat _ _ hmd
    exact ⟨hwtr, md', hmd', hu'.symm.trans hu⟩

lemma Attached.catalogCreate {table : TableIdent} {md : TableMetadata}
    (hcr : s.catalogCreate table md = some s') :
    s'.Attached config cm ∧ s'.requests = s.requests := by
  unfold NodeState.catalogCreate at hcr
  split at hcr
  · cases hcr
    exact ⟨h, rfl⟩
  · rename_i hn
    split_ifs at hcr with hus
    cases hcr
    refine ⟨h.of_catalog (List.Subset.refl _) ?_ ?_ ?_, rfl⟩
    · intro o fd hfnd
      refine ⟨fd, ?_, rfl⟩
      rw [if_neg, hfnd]
      rintro rfl
      simp [hn] at hfnd
    · intro o fd hfnd
      split_ifs at hfnd
      · cases hfnd
        simp
      · exact List.mem_append_left _ (h.known o fd hfnd)
    · intro one two fd fd' hone htwo hs
      split_ifs at hone htwo with h1 h2 h2
      · exact h1.trans h2.symm
      · cases hone
        exact absurd (hs ▸ h.known two fd' htwo) hus
      · cases htwo
        exact absurd (hs ▸ h.known one fd hone) hus
      · exact h.unique one two fd fd' hone htwo hs

lemma Attached.serves_of_heap {table : TableIdent} {buf : Nat} {t : TableBuffer F α}
    (hreg : s.registry table = some buf) (hh : s.heap[buf]? = some t) : s.Serves cm table t := by
  obtain ⟨found, hfound, hsv⟩ := h.serves table buf hreg
  rwa [Option.some.inj (hh.symm.trans hfound)]

/-- One buffer moves on together with the requests and acknowledgements of its table. -/
lemma Attached.update {table : TableIdent} {buf : Nat} {t t' : TableBuffer F α}
    (hreg : s.registry table = some buf) (hh : s.heap[buf]? = some t) (hid : t'.ident = t.ident)
    (hmd : t'.metadata.tableUuid = t.metadata.tableUuid)
    {requests : List (Request α)} {acked : List AckedBatch}
    (hled : ∃ ins com, FenceRun.Ledger ⟨t', waitingFor requests table, ins, com⟩ ∧
      ins.map (fun en => (en.batchId, en.generation)) = ackedOf acked table ∧
        ∀ en ∈ com, batchKey t.metadata.tableUuid en ∈ cm)
    (hot : ∀ o, o ≠ table → (waitingFor requests o).Perm (waitingFor s.requests o) ∧
      ackedOf acked o = ackedOf s.acked o)
    (hreqs : ∀ request ∈ requests, request ∈ s.requests ∨
      request.table = table ∧ request.phase.buffer? = some buf)
    (hak : ∀ bt ∈ acked, bt ∈ s.acked ∨ bt.receipt.writerId = config.writerId ∧
      bt.table = table ∧ bt.tableUuid = t.metadata.tableUuid) :
    Attached config cm { s with
      heap := s.heap.set buf t', requests := requests, acked := acked } := by
  have hsv := h.serves_of_heap hreg hh
  obtain ⟨md, hcat, huu⟩ := hsv.uuid
  have hlt : buf < s.heap.length := (List.getElem?_eq_some_iff.mp hh).1
  refine ⟨h.known, h.unique, ?_, ?_, ?_, ?_, ?_, h.statements⟩
  · intro request hreq b hb
    rcases hreqs request hreq with hold | ⟨htb, hbuf⟩
    · exact h.holders request hold b hb
    · rw [htb, ← Option.mem_def.mp hb, hbuf]
      exact hreg
  · intro request hreq m gen hph
    rcases hreqs request hreq with hold | ⟨_, hbuf⟩
    · exact h.loads request hold m gen hph
    · rw [hph] at hbuf
      cases hbuf
  · intro o b hb
    by_cases hs : o = table
    · subst hs
      obtain rfl : b = buf := Option.some.inj (hb.symm.trans hreg)
      refine ⟨t', List.getElem?_set_self hlt, hid.trans hsv.ident, ⟨md, hcat, hmd.trans huu⟩, ?_⟩
      rwa [hmd]
    · obtain ⟨u, hu, hsv'⟩ := h.serves o b hb
      have hne : buf ≠ b := by
        rintro rfl
        obtain rfl : t = u := Option.some.inj (hh.symm.trans hu)
        exact hs (hsv'.ident.symm.trans hsv.ident)
      refine ⟨u, ?_, ?_⟩
      · rw [List.getElem?_set_ne hne]
        exact hu
      · exact hsv'.of_perm rfl (hot o hs).1 (hot o hs).2
  · intro o hn
    by_cases hs : o = table
    · subst hs
      rw [hreg] at hn
      cases hn
    · rw [(hot o hs).2]
      exact h.unserved o hn
  · intro bt hbt
    rcases hak bt hbt with hold | ⟨hwtr, htb, hu⟩
    · exact h.acked bt hold
    · refine ⟨hwtr, md, ?_, ?_⟩
      · rw [htb]
        exact hcat
      · rw [hu, huu]

lemma Attached.register {table : TableIdent} {md : TableMetadata} {gen : Nat}
    (hreg : s.registry table = none) (hl : s.Loaded table md gen) :
    (s.register table (newBuffer config table md gen)).Attached config cm := by
  have hwt : waitingFor s.requests table = [] := by
    apply List.filterMap_eq_nil_iff.mpr
    intro request hreq
    by_cases htb : request.table = table
    · cases hph : request.phase with
      | appending buf pd wr =>
        have hhd := h.holders request hreq buf (by simp [hph, RequestPhase.buffer?])
        rw [htb, hreg] at hhd
        cases hhd
      | _ => simp [reservationFor, hph, RequestPhase.pending?]
    · exact reservationFor_other htb
  refine ⟨h.known, h.unique, ?_, h.loads, ?_, ?_, h.acked, h.statements⟩
  · intro request hreq buf hbuf
    have hhd := h.holders request hreq buf hbuf
    have hne : request.table ≠ table := by
      intro heq
      rw [heq, hreg] at hhd
      cases hhd
    simpa [NodeState.register, hne] using hhd
  · intro o buf hbuf
    simp only [NodeState.register] at hbuf ⊢
    split_ifs at hbuf with hs
    · subst hs
      cases hbuf
      refine ⟨_, List.getElem?_concat_length, rfl, hl.1, [], [], ?_, ?_, by simp⟩
      · rw [hwt]
        exact FenceRun.Ledger.start _ _ _ _ config.maxBytes_le hl.2
      · rw [h.unserved o hreg]
        rfl
    · obtain ⟨t, hh, hsv⟩ := h.serves o buf hbuf
      refine ⟨t, ?_, hsv.of_perm rfl (List.Perm.refl _) rfl⟩
      rw [List.getElem?_append_left (List.getElem?_eq_some_iff.mp hh).1]
      exact hh
  · intro o hot
    simp only [NodeState.register] at hot
    split_ifs at hot
    exact h.unserved o hot

/-- Evicting a buffer of a table without acknowledged rows that no request holds. -/
lemma Attached.unregister {table : TableIdent} (hi : ∀ buf, s.registry table = some buf →
      (∀ bt ∈ s.acked, bt.table ≠ table) ∧
        ∀ request ∈ s.requests, request.phase.buffer? ≠ some buf) :
    (s.unregister table).Attached config cm := by
  have hak : ackedOf s.acked table = [] := by
    cases hreg : s.registry table with
    | none => exact h.unserved table hreg
    | some buf => simpa [ackedOf] using (hi buf hreg).1
  refine ⟨h.known, h.unique, ?_, h.loads, ?_, ?_, h.acked, h.statements⟩
  · intro request hreq buf hbuf
    have hhd := h.holders request hreq buf hbuf
    have hne : request.table ≠ table := by
      intro heq
      rw [heq] at hhd
      exact (hi buf hhd).2 request hreq hbuf
    simpa [NodeState.unregister, hne] using hhd
  · intro o buf hbuf
    simp only [NodeState.unregister] at hbuf ⊢
    split_ifs at hbuf
    obtain ⟨t, hh, hsv⟩ := h.serves o buf hbuf
    exact ⟨t, hh, hsv.of_perm rfl (List.Perm.refl _) rfl⟩
  · intro o hot
    simp only [NodeState.unregister] at hot
    split_ifs at hot with hs
    · exact hs ▸ hak
    · exact h.unserved o hot

end

lemma loadedGeneration_le {table : TableIdent} {md : TableMetadata} {gen : Nat}
    (h : loadedGeneration config table md = .ok gen) : gen ≤ u64Max := by
  unfold loadedGeneration at h
  split at h
  · cases h
  · split at h
    · cases h
    · obtain rfl := Except.ok.inj h
      exact Nat.zero_le _
    · rename_i cp hps
      obtain rfl := Except.ok.inj h
      obtain ⟨value, _, hdec⟩ := parseWriterCheckpoint_eq_some.mp hps
      exact (config.codec.fromJson_le _ _ (WriterCheckpoint.decode_eq_ok.mp hdec).2.1).2

lemma lookup_spec (s : NodeState F α) (table : TableIdent) (created : Bool) :
    (s.lookup table created).pending? = none ∧
      (∀ buf ∈ (s.lookup table created).buffer?, s.registry table = some buf) ∧
      ∀ md gen, s.lookup table created ≠ .loaded md gen := by
  unfold lookup
  cases s.registry table with
  | none => simp [RequestPhase.pending?, RequestPhase.buffer?]
  | some buf => simp [RequestPhase.pending?, RequestPhase.buffer?]

lemma ackedOf_append (acked : List AckedBatch) (bt : AckedBatch) (table : TableIdent) :
    ackedOf (acked ++ [bt]) table = ackedOf acked table ++
      if bt.table = table then [(bt.receipt.batchId, bt.receipt.generation)] else [] := by
  unfold ackedOf
  by_cases h : bt.table = table <;> simp [h]

section

variable (h : s.Attached config cm)

include h

/-- What the books of a table say of a request that waits for its append. -/
lemma Attached.waiting {index buf : Nat} {request : Request α} {pend : PendingAppend α}
    {wr : Bool} (hreq : s.requests[index]? = some request)
    (hph : request.phase = .appending buf pend wr) :
    s.registry request.table = some buf ∧ (waitingFor s.requests request.table).Perm
        ((pend.reservation, pend.record.batch) ::
          waitingFor (s.requests.eraseIdx index) request.table) := by
  constructor
  · apply h.holders request (List.mem_of_getElem? hreq)
    simp [hph, RequestPhase.buffer?]
  · have hp := waitingFor_eraseIdx hreq request.table
    simpa [reservationFor, hph, RequestPhase.pending?] using hp

lemma Attached.request {index : Nat} {request : Request α}
    (hreq : s.requests[index]? = some request) (hm : RequestMove config s index request s') :
    s'.Attached config cm := by
  cases hm with
  | ends hph => exact h.finish hreq hph
  | waits hph hn =>
    rcases hn with rfl | rfl
    · exact h.goOn hreq hph.symm (by simp [RequestPhase.buffer?]) (by simp)
    · exact h.goOn hreq hph.symm (by simp [RequestPhase.buffer?]) (by simp)
  | loads hph hcat hgen =>
    refine h.goOn hreq hph.symm (by simp [RequestPhase.buffer?]) ?_
    intro md gen heq
    obtain ⟨rfl, rfl⟩ := RequestPhase.loaded.inj heq
    exact ⟨⟨_, hcat, rfl⟩, loadedGeneration_le hgen⟩
  | creates hph hcre =>
    rename_i md created
    obtain ⟨hcr, hs⟩ := h.catalogCreate hcre
    obtain ⟨hnone, hbuf, hl⟩ := created.lookup_spec request.table true
    apply hcr.goOn (hs ▸ hreq) (hnone.trans hph.symm) hbuf
    exact fun md gen heq => absurd heq (hl md gen)
  | createsUnseen hph hcre =>
    obtain ⟨hcr, hs⟩ := h.catalogCreate hcre
    exact hcr.finish (hs ▸ hreq) hph
  | finds hph hreg =>
    refine h.goOn hreq hph.symm ?_ (by simp)
    · intro buf hbuf
      rwa [← Option.some.inj hbuf]
  | registers hph hreg =>
    have hl := h.loads request (List.mem_of_getElem? hreq) _ _ hph
    have hpd : (RequestPhase.holding s.heap.length : RequestPhase α).pending? =
        request.phase.pending? := by
      rw [hph]
      rfl
    apply (h.register hreg hl).goOn hreq hpd
    · intro buf hbuf
      rw [← Option.some.inj hbuf]
      simp [NodeState.register]
    · simp
  | reserves hph hh hrsv =>
    rename_i buf t t' bt rsv
    have hreg : s.registry request.table = some buf :=
      h.holders request (List.mem_of_getElem? hreq) buf (by simp [hph, RequestPhase.buffer?])
    obtain ⟨ins, com, hled, hins, hcom⟩ := (h.serves_of_heap hreg hh).ledger
    obtain ⟨_, _, heq⟩ := TableBuffer.reserve_eq_ok.mp hrsv
    have ht' := congrArg Prod.snd heq
    dsimp only at ht'
    apply h.update hreg hh (by rw [← ht']; rfl) (by rw [← ht']; rfl)
    · refine ⟨ins, com, (hled.reserve hrsv).of_held_perm ?_, hins, hcom⟩
      have hp := waitingFor_eraseIdx hreq request.table
      rw [reservationFor_of_none (by simp [hph, RequestPhase.pending?])] at hp
      rw [waitingFor_cons]
      simpa [reservationFor, RequestPhase.pending?, walRecord, NodeState.setBuffer] using hp.symm
    · exact fun o hot => ⟨waitingFor_goOn_other hreq hot, rfl⟩
    · intro r hr
      rcases List.mem_cons.mp hr with rfl | hr
      · exact Or.inr ⟨rfl, rfl⟩
      · exact Or.inl (List.mem_of_mem_eraseIdx hr)
    · exact fun bt hbt => Or.inl hbt
  | writes hph =>
    apply h.goOn hreq
    · rw [hph]
      rfl
    · intro buf hbuf
      apply h.holders request (List.mem_of_getElem? hreq)
      rw [hph]
      exact hbuf
    · simp
  | fails hph hh =>
    rename_i buf pend wr t
    obtain ⟨hreg, hwt⟩ := h.waiting hreq hph
    obtain ⟨ins, com, hled, hins, hcom⟩ := (h.serves_of_heap hreg hh).ledger
    apply h.update hreg hh (t.releaseReservation_ident _) (by simp)
    · exact ⟨ins, com, hled.releaseReservation hwt, hins, hcom⟩
    · exact fun o hot => ⟨waitingFor_eraseIdx_other hreq hot, rfl⟩
    · exact fun r hr => Or.inl (List.mem_of_mem_eraseIdx hr)
    · exact fun bt hbt => Or.inl hbt
  | accepts hph hh stays =>
    rename_i buf pend t
    obtain ⟨hreg, hwt⟩ := h.waiting hreq hph
    obtain ⟨ins, com, hled, hins, hcom⟩ := (h.serves_of_heap hreg hh).ledger
    set receipt : IngestReceipt := ⟨pend.record.header.batchId, config.writerId,
      pend.reservation.generation, pend.record.header.rowCount⟩
    set bt : AckedBatch := ⟨request.table, t.metadata.tableUuid, receipt⟩
    have hled' := hled.insertReservedAt pend.record.header.batchId
      pend.record.header.createdAtMs hwt
    have hfin : Attached config cm { s with
        heap := s.heap.set buf (t.insertReservedAt pend.record.header.batchId
          pend.reservation pend.record.header.createdAtMs pend.record.batch).2
        requests := s.requests.eraseIdx index
        acked := s.acked ++ [bt] } := by
      apply h.update hreg hh (t.insertReservedAt_ident _ _ _ _) (by simp)
      · refine ⟨_, com, hled', ?_, hcom⟩
        rw [List.map_append, hins, ackedOf_append, if_pos rfl]
        rfl
      · intro o hot
        refine ⟨waitingFor_eraseIdx_other hreq hot, ?_⟩
        rw [ackedOf_append, if_neg (Ne.symm hot), List.append_nil]
      · exact fun r hr => Or.inl (List.mem_of_mem_eraseIdx hr)
      · intro o hot
        rcases mem_concat_iff.mp hot with hot | rfl
        · exact Or.inl hot
        · exact Or.inr ⟨rfl, rfl, rfl⟩
    cases stays with
    | false => exact hfin
    | true =>
      apply hfin.of_requests
      · intro table
        rw [waitingFor_cons, reservationFor_of_none rfl]
        exact List.Perm.refl _
      · intro r hr
        rcases List.mem_cons.mp hr with rfl | hr
        · right
          refine ⟨?_, by simp⟩
          intro b hb
          rwa [← Option.some.inj hb]
        · exact Or.inl hr

lemma Attached.next {op : NodeOp α} (hal : op.createOrIngest = true)
    (hunused : FlushingNode.EvictsUnused ⟨s, cm⟩ (.node op))
    (hn : s.next config op = some s') : s'.Attached config cm := by
  have hreqs : ∀ index, op.movedRequest = some index → s'.Attached config cm := by
    intro index hmoved
    obtain ⟨request, hi, hs⟩ := requestStep_of_next hmoved hn
    exact h.request hi (requestStep_move hs)
  cases op with
  | arrive tr table =>
    cases hn
    obtain ⟨hnone, hbuf, hl⟩ := s.lookup_spec table false
    apply h.of_requests
    · intro o
      rw [waitingFor_cons, reservationFor_of_none hnone]
      exact List.Perm.refl _
    · intro r hr
      rcases List.mem_cons.mp hr with rfl | hr
      · exact Or.inr ⟨hbuf, fun m g heq => absurd heq (hl m g)⟩
      · exact Or.inl hr
  | load index fl => exact hreqs index rfl
  | createNamespace index ok => exact hreqs index rfl
  | autoCreate index md out => exact hreqs index rfl
  | enterRegistry index => exact hreqs index rfl
  | reserve index prep => exact hreqs index rfl
  | writeRecord index => exact hreqs index rfl
  | answer index result => exact hreqs index rfl
  | endStream index => exact hreqs index rfl
  | createTable table md out =>
    simp only [NodeState.next] at hn
    split at hn
    · cases hn
      exact h
    · cases hn
      exact h
    · exact (h.catalogCreate hn).1
    · obtain ⟨created, hcre, rfl⟩ := Option.map_eq_some_iff.mp hn
      obtain ⟨hcr, _⟩ := h.catalogCreate hcre
      refine ⟨hcr.known, hcr.unique, hcr.holders, hcr.loads, ?_, hcr.unserved, hcr.acked, ?_⟩
      · intro o buf hreg
        obtain ⟨t, hh, hsv⟩ := hcr.serves o buf hreg
        exact ⟨t, hh, hsv.of_perm rfl (List.Perm.refl _) rfl⟩
      · intro stm hstm
        rcases List.mem_cons.mp hstm with rfl | hstm
        · exact ⟨table, rfl⟩
        · exact hcr.statements stm hstm
  | evict index =>
    simp only [NodeState.next] at hn
    split at hn
    · cases hn
    · rename_i stm hstm
      obtain ⟨table, rfl⟩ := h.statements stm (List.mem_of_getElem? hstm)
      cases hn
      have hevi : (s.unregister table).Attached config cm := by
        apply h.unregister
        intro buf hreg
        simpa [FlushingNode.EvictsUnused, hstm, hreg] using hunused
      refine ⟨hevi.known, hevi.unique, hevi.holders, hevi.loads, ?_, hevi.unserved, hevi.acked, ?_⟩
      · intro o buf hreg
        obtain ⟨t, hh, hsv⟩ := hevi.serves o buf hreg
        exact ⟨t, hh, hsv.of_perm rfl (List.Perm.refl _) rfl⟩
      · exact fun st hst => h.statements st (List.mem_of_mem_eraseIdx hst)
  | rotate =>
    cases hn
    exact h.of_requests (fun _ => List.Perm.refl _) fun _ hr => Or.inl hr
  | gc cm rf count =>
    cases hn
    exact h.of_requests (fun _ => List.Perm.refl _) fun _ hr => Or.inl hr
  | dropTable table out => cases hal
  | tombstone index batchId createdAtMs wr => cases hal
  | crash dropped => cases hal

lemma Attached.generations_nodup (table : TableIdent) :
    ((ackedOf s.acked table).map Prod.snd).Nodup := by
  cases hreg : s.registry table with
  | none => simp [h.unserved table hreg]
  | some buf =>
    obtain ⟨t, _, hsv⟩ := h.serves table buf hreg
    obtain ⟨ins, com, hled, hins, hcom⟩ := hsv.ledger
    have hnd : (generations ins).Nodup :=
      (hled.inserted_perm.map _).nodup_iff.mpr hled.generations_nodup
    rw [← hins, List.map_map]
    exact hnd

lemma Attached.noneStranded : FlushingNode.NoneStranded ⟨s, cm⟩ := by
  constructor
  · intro bt hbt hcm md hcatalog hu
    have hmem : (bt.receipt.batchId, bt.receipt.generation) ∈ ackedOf s.acked bt.table :=
      List.mem_map.mpr ⟨bt, List.mem_filter.mpr ⟨hbt, by simp⟩, rfl⟩
    cases hreg : s.registry bt.table with
    | none =>
      rw [h.unserved _ hreg] at hmem
      cases hmem
    | some buf =>
      obtain ⟨t, hh, hsv⟩ := h.serves _ _ hreg
      obtain ⟨fd, hfd, huu⟩ := hsv.uuid
      cases hcatalog.symm.trans hfd
      obtain ⟨ins, com, hled, hins, hcom⟩ := hsv.ledger
      rw [← hins] at hmem
      obtain ⟨en, hen, heq⟩ := List.mem_map.mp hmem
      obtain ⟨hid, hgen⟩ := Prod.ext_iff.mp heq
      have hnot : en ∉ com := by
        intro hc
        have hk := hcom en hc
        rw [batchKey, huu, hu, show en.batchId = _ from hid, show en.generation = _ from hgen] at hk
        exact hcm hk
      refine ⟨buf, t, rfl, hh, en, ?_, hid, hgen⟩
      simpa [or_comm, hnot] using hled.inserted_perm.mem_iff.mp hen
  · rw [List.Nodup, List.pairwise_map, List.pairwise_iff_forall_sublist]
    intro a b hab heq
    have ha : a ∈ s.acked := hab.subset (by simp)
    have hb : b ∈ s.acked := hab.subset (by simp)
    obtain ⟨_, ma, hma, hua⟩ := h.acked a ha
    obtain ⟨_, mb, hmb, hub⟩ := h.acked b hb
    obtain ⟨hu, _, hgen⟩ := by simpa using heq
    have htb : a.table = b.table := by
      apply h.unique _ _ _ _ hma hmb
      rw [hua, hub, hu]
    have hp : [a.receipt.generation, b.receipt.generation].Sublist
        ((ackedOf s.acked a.table).map Prod.snd) := by
      have hfil := (hab.filter fun bt => bt.table = a.table).map fun bt =>
        bt.receipt.generation
      simpa [ackedOf, htb, Function.comp_def] using hfil
    have hne := (h.generations_nodup a.table).sublist hp
    simp [hgen] at hne

end

end

end NodeState

section

variable {config : NodeConfig} {cm : List BatchKey} {s : NodeState F α} [BEq F]

/-- A call of a flush keeps the table of the buffer, and commits rows only when it tells of a
commit. -/
lemma applyFlush_table (t : TableBuffer F α) (op : FlushOp F) :
    (t.applyFlush op).1.ident = t.ident ∧
      (((t.applyFlush op).1.metadata = t.metadata ∧ (t.applyFlush op).2 = []) ∨
        ∃ genHi md pushedAt now, op = .markCommitted genHi md pushedAt now ∧
          (t.applyFlush op).1.metadata = md ∧ (t.applyFlush op).2 = t.state.inFlight) := by
  have hd : ∀ {res : TeoDBResult (TableBuffer F α)},
      (∀ t', res = .ok t' → t'.ident = t.ident ∧ t'.metadata = t.metadata) →
      (res.toOption.getD t).ident = t.ident ∧ (res.toOption.getD t).metadata = t.metadata := by
    intro res h
    cases res with
    | error e => exact ⟨rfl, rfl⟩
    | ok t' => exact h t' rfl
  cases op with
  | drainPendingToInFlight =>
    simp only [TableBuffer.applyFlush, TableBuffer.drainPendingToInFlight]
    split_ifs <;> exact ⟨rfl, .inl ⟨rfl, trivial⟩⟩
  | setPrepared prep =>
    refine (hd fun t' ht => ?_).imp_right fun hmd => .inl ⟨hmd, rfl⟩
    rcases (TableBuffer.setPrepared_ok ht).2 with ⟨_, rfl⟩ | ⟨_, rfl⟩ <;> exact ⟨rfl, rfl⟩
  | markCommitted genHi md pushedAt now =>
    cases hr : t.markCommitted genHi md pushedAt now with
    | error e => simp [TableBuffer.applyFlush, hr]
    | ok t' =>
      obtain ⟨_, rfl⟩ := TableBuffer.markCommitted_eq_ok.mp hr
      simp only [TableBuffer.applyFlush, hr]
      exact ⟨rfl, .inr ⟨genHi, md, pushedAt, now, rfl, rfl, trivial⟩⟩
  | rollbackUnpreparedFlush =>
    refine (hd fun t' ht => ?_).imp_right fun hmd => .inl ⟨hmd, rfl⟩
    obtain ⟨_, rfl⟩ := TableBuffer.rollbackUnpreparedFlush_eq_ok.mp ht
    exact ⟨rfl, rfl⟩
  | markFlushFailed prep =>
    refine (hd fun t' ht => ?_).imp_right fun hmd => .inl ⟨hmd, rfl⟩
    obtain ⟨_, rfl⟩ := TableBuffer.markFlushFailed_eq_ok.mp ht
    exact ⟨rfl, rfl⟩
  | markFlushBlocked prep err n now =>
    refine (hd fun t' ht => ?_).imp_right fun hmd => .inl ⟨hmd, rfl⟩
    obtain ⟨_, _, rfl⟩ := TableBuffer.markFlushBlockedWithClass_ok ht
    exact ⟨rfl, rfl⟩

namespace FlushingNode

variable {s s' : FlushingNode F α} {table : TableIdent} {buf : Nat} {t : TableBuffer F α}

omit [BEq F] in
lemma registered_eq_some (h : s.registered table = some (buf, t)) :
    s.node.registry table = some buf ∧ s.node.heap[buf]? = some t := by
  obtain ⟨b, hb, hmap⟩ := Option.bind_eq_some_iff.mp h
  obtain ⟨u, hu, heq⟩ := Option.map_eq_some_iff.mp hmap
  cases heq
  exact ⟨hb, hu⟩

variable (h : s.node.Attached config s.committed)

include h

lemma attached_flush {op : FlushOp F} (hrg : s.registered table = some (buf, t))
    (hans : s.Answers t op) :
    (s.node.setBuffer buf (t.applyFlush op).1).Attached config s.committed := by
  obtain ⟨hreg, hh⟩ := registered_eq_some hrg
  obtain ⟨ins, com, hled, hins, hcom⟩ := (h.serves_of_heap hreg hh).ledger
  obtain ⟨hid, hcases⟩ := applyFlush_table t op
  obtain ⟨hmd, hnew⟩ : (t.applyFlush op).1.metadata.tableUuid = t.metadata.tableUuid ∧
      ∀ e ∈ (t.applyFlush op).2, batchKey t.metadata.tableUuid e ∈ s.committed := by
    rcases hcases with ⟨hmd, hnil⟩ | ⟨genHi, md, pushedAt, now, rfl, hmd, heq⟩
    · simp [hmd, hnil]
    · rw [hmd, heq]
      exact hans
  refine h.update hreg hh hid hmd ⟨ins, _, hled.applyFlush op, hins, fun e he => ?_⟩
    (fun o _ => ⟨List.Perm.refl _, rfl⟩) (fun r hr => .inl hr) fun bt hbt => .inl hbt
  exact (List.mem_append.mp he).elim (hcom e) (hnew e)

omit [BEq F] in
lemma attached_publish {old md : TableMetadata} (hold : s.node.catalog table = some old)
    (hpub : Publishes config table old md t) :
    (s.publish table md t).node.Attached config (s.publish table md t).committed := by
  have hback : ∀ o fd, (if o = table then some md else s.node.catalog o) = some fd →
      ∃ fd', s.node.catalog o = some fd' ∧ fd.tableUuid = fd'.tableUuid := by
    intro o fd hfd
    split_ifs at hfd with ho
    · cases hfd
      exact ⟨old, ho ▸ hold, hpub.2.1⟩
    · exact ⟨fd, hfd, rfl⟩
  refine h.of_catalog (List.subset_append_left _ _) ?_ ?_ ?_
  · intro o fd hfd
    by_cases ho : o = table
    · subst ho
      cases hold.symm.trans hfd
      exact ⟨md, if_pos rfl, hpub.2.1.symm⟩
    · exact ⟨fd, (if_neg ho).trans hfd, rfl⟩
  · intro o fd hfd
    obtain ⟨fd', hfd', hu⟩ := hback o fd hfd
    exact hu ▸ h.known o fd' hfd'
  · intro o o' fd fd' hfd hfd' hs
    obtain ⟨x, hx, hu⟩ := hback o fd hfd
    obtain ⟨x', hx', hu'⟩ := hback o' fd' hfd'
    exact h.unique o o' x x' hx hx' (hu.symm.trans (hs.trans hu'))

lemma attached_next {op : FlushingOp F α} (hunused : s.EvictsUnused op)
    (hn : s.next config op = some s') : s'.node.Attached config s'.committed := by
  cases op with
  | node op =>
    simp only [next] at hn
    split_ifs at hn with hal
    obtain ⟨node, hnode, rfl⟩ := Option.map_eq_some_iff.mp hn
    exact h.next hal hunused hnode
  | flush table op =>
    simp only [next] at hn
    split at hn
    · rename_i hreg
      split_ifs at hn with hans
      cases hn
      exact attached_flush h hreg hans
    · cases hn
  | publish table md =>
    simp only [next] at hn
    split at hn
    · rename_i hold
      split_ifs at hn with hpub
      cases hn
      exact attached_publish h hold hpub
    · cases hn

omit h in
/-- In every run that evicts only unused buffers, no acknowledged batch is stranded. -/
theorem noneStranded_of_evictsUnused
    (run : (createMachine F α config).ReachableIf EvictsUnused s) : s.NoneStranded := by
  have hatt : s.node.Attached config s.committed := by
    apply run.invariant
    · rintro s ⟨⟨hkn, hun, heq⟩, hcm⟩
      rw [heq, hcm]
      exact ⟨hkn, hun, by simp, by simp, by simp, by simp [NodeState.ackedOf], by simp, by simp⟩
    · exact fun s op s' hi hunused hn => attached_next hi hunused hn
  exact hatt.noneStranded

end FlushingNode

end

namespace FlushingNode

open NodeState

instance (s : FlushingNode F α) (op : FlushingOp F α) : Decidable (s.EvictsUnused op) := by
  unfold EvictsUnused
  split
  · split
    · split <;> infer_instance
    · infer_instance
  · infer_instance

/-- A node without any table. -/
def freshStart : FlushingNode Unit Nat :=
  ⟨⟨fun _ => none, [], [], fun _ => none, [], [], ⟨[], none, 1⟩, []⟩, []⟩

/-- Every checkpoint is that of the first generation. -/
def flushConfig : NodeConfig :=
  { plainConfig with
    codec := ⟨fun _ => "", fun _ => .ok (.ofNat 3), fun _ => .error "",
      fun _ => .ok ⟨writeProtocolVersion, ⟨1⟩, 1, ⟨.ofNat 4⟩, 0⟩, by
        rintro _ _ ⟨⟩
        decide⟩ }

/-- The table after the first flush. -/
def flushedMetadata : TableMetadata :=
  { plainMetadata 7 with
    properties := OrdMap.empty.insert (writerCheckpointKey flushConfig.codec ⟨.ofNat 3⟩) "" }

lemma freshStart_start (config : NodeConfig) : (createMachine Unit Nat config).start freshStart :=
  ⟨⟨by simp [freshStart], by simp [freshStart], rfl⟩, rfl⟩

/-- What a client and a reader can see, and how much is committed. -/
def observeTable (s : FlushingNode Unit Nat) :
    List (Uuid × Nat) × Option (List (Uuid × Nat)) × Nat :=
  (s.node.acked.map fun batch => (batch.receipt.batchId, batch.receipt.generation),
    (s.node.registry plainTable).bind fun buffer => (s.node.heap[buffer]?).map fun t =>
      t.state.pending.map fun entry => (entry.batchId, entry.generation),
    s.committed.length)

/-- The buffer is evicted before the first row comes in. That row is flushed, and the next one comes
in behind it. -/
def evictBeforeIngest : List (FlushingOp Unit Nat) :=
  ([.createTable plainTable (plainMetadata 7) .answered, .evict 0] ++
      plainIngest 1 : List (NodeOp Nat)).map .node ++
    [.flush plainTable .drainPendingToInFlight, .publish plainTable flushedMetadata,
      .flush plainTable (.markCommitted 1 flushedMetadata 0 0)] ++
    (NodeOp.arrive .rest plainTable :: (plainIngest 2).drop 3).map .node

theorem noneStranded_evictBeforeIngest :
    ∃ s, (createMachine Unit Nat flushConfig).ReachableIf EvictsUnused s ∧
      observeTable s = ([(.ofNat 1, 1), (.ofNat 2, 2)], some [(.ofNat 2, 2)], 1) ∧
      s.NoneStranded := by
  have hrun : (((createMachine Unit Nat flushConfig).guarded EvictsUnused).exec freshStart
      evictBeforeIngest).map observeTable =
        some ([(.ofNat 1, 1), (.ofNat 2, 2)], some [(.ofNat 2, 2)], 1) := by
    decide +kernel
  obtain ⟨s, hs, hobs⟩ := Machine.existsIf_of_exec (freshStart_start _) hrun
  exact ⟨s, hs, hobs, noneStranded_of_evictsUnused hs⟩

/-- A row is acknowledged between the creation of its table and the eviction, and another after. -/
def ingestBeforeEvict : List (FlushingOp Unit Nat) :=
  ([.createTable plainTable (plainMetadata 7) .answered] ++ plainIngest 1 ++ [.evict 0] ++
    plainIngest 2 : List (NodeOp Nat)).map .node

/-- The first row is in no registered buffer, and both rows have generation one. -/
theorem ingestBeforeEvict_strands : ∃ s, (createMachine Unit Nat plainConfig).Reachable s ∧
      observeTable s = ([(.ofNat 1, 1), (.ofNat 2, 1)], some [(.ofNat 2, 1)], 0) ∧
      ¬ s.NoneStranded := by
  have hrun : ((createMachine Unit Nat plainConfig).exec freshStart ingestBeforeEvict).map
      (fun s => (observeTable s, s.node.acked.map fun bt =>
        (bt.tableUuid, bt.receipt.writerId, bt.receipt.generation))) =
      some (([(.ofNat 1, 1), (.ofNat 2, 1)], some [(.ofNat 2, 1)], 0),
        [(.ofNat 7, ⟨.ofNat 3⟩, 1), (.ofNat 7, ⟨.ofNat 3⟩, 1)]) := rfl
  obtain ⟨s, hs, hobs⟩ := Machine.exists_of_exec (freshStart_start _) hrun
  obtain ⟨hseen, hk⟩ := Prod.ext_iff.mp hobs
  refine ⟨s, hs, hseen, ?_⟩
  intro hn
  have hdis := hn.distinct
  rw [show s.node.acked.map _ = _ from hk] at hdis
  simp at hdis

end FlushingNode

end TeoDB.Node

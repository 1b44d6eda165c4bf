import TeoDB.Ingest.Service.Ingest
import TeoDB.Lib.Machine
import TeoDB.Node.Log

/-!
# A node under ingest and DDL statements

Ingest requests find their buffer through the registry, or load the table from the catalog and
register a new buffer. A `CREATE TABLE` statement creates the table in the catalog and evicts the
buffer of that name afterwards. A `DROP TABLE` statement drops the table in the catalog, evicts the
buffer and writes a tombstone to the log. No lock is shared, so each of these is a step of its own.

## Implementation notes

`heap` holds every buffer that was made, and buffers are referred to by their position. A call to
the catalog can take effect without its caller learning of it.
-/

namespace TeoDB.Node

open TeoDB.Core Lib Lib.MachineInt Storage.Wal Ingest.Buffer
  Ingest.Service

variable {F α : Type}

/-- What stays fixed while a node runs. -/
structure NodeConfig where
  writerId : WriterId
  codec : TextCodec
  errorText : TeoDBError → String
  maxBytes : Nat
  softWatermarkBytes : Nat
  committedGrace : Nat
  maxBytes_le : maxBytes ≤ u64Max

/-- Where an ingest request is. -/
inductive RequestPhase (α : Type) where
  | loading (created : Bool)
  | creatingNamespace
  | creatingTable
  | loaded (metadata : TableMetadata) (committedGeneration : Nat)
  | holding (buffer : Nat)
  | appending (buffer : Nat) (pending : PendingAppend α) (written : Bool)

structure Request (α : Type) where
  transport : Transport
  table : TableIdent
  phase : RequestPhase α

/-- The append that a phase waits for. -/
def RequestPhase.pending? : RequestPhase α → Option (PendingAppend α)
  | .appending _ pending _ => some pending
  | _ => none

/-- A statement whose catalog call has been answered. -/
inductive Statement where
  | create (table : TableIdent)
  | drop (table : TableIdent) (birth : Nat) (evicted : Bool)
deriving DecidableEq

/-- An acknowledged batch, as its client knows it. -/
structure AckedBatch where
  table : TableIdent
  tableUuid : Uuid
  receipt : IngestReceipt
deriving DecidableEq

/-- How a call to the catalog ends: answered, applied without an answer, or failed. -/
inductive CallOutcome where
  | answered
  | lost
  | failed
deriving DecidableEq

structure NodeState (F α : Type) where
  catalog : TableIdent → Option TableMetadata
  created : List Uuid
  heap : List (TableBuffer F α)
  registry : TableIdent → Option Nat
  requests : List (Request α)
  statements : List Statement
  log : NodeLog α
  acked : List AckedBatch

inductive NodeOp (α : Type) where
  | arrive (transport : Transport) (table : TableIdent)
  | load (index : Nat) (failure : Option TeoDBError)
  | createNamespace (index : Nat) (ok : Bool)
  | autoCreate (index : Nat) (metadata : TableMetadata) (outcome : CallOutcome)
  | enterRegistry (index : Nat)
  | reserve (index : Nat) (preparation : Preparation α)
  | writeRecord (index : Nat)
  | answer (index : Nat) (result : TeoDBResult Unit)
  | endStream (index : Nat)
  | createTable (table : TableIdent) (metadata : TableMetadata) (outcome : CallOutcome)
  | dropTable (table : TableIdent) (outcome : CallOutcome)
  | evict (index : Nat)
  | tombstone (index : Nat) (batchId : Uuid) (createdAtMs : Int) (written : Bool)
  | rotate
  | gc (committed : CommittedMap) (removeFails : Nat → Bool) (count : Nat)
  | crash (dropped : List (TableIdent × Uuid × Int))

/-- The committed generation that a loaded table starts its buffer with. -/
def loadedGeneration (config : NodeConfig) (table : TableIdent) (metadata : TableMetadata) :
    TeoDBResult Nat :=
  match validateWriterCheckpoints config.codec table metadata.properties with
  | .error error => .error error
  | .ok _ =>
    match parseWriterCheckpoint config.codec table metadata.properties config.writerId with
    | .error error => .error error
    | .ok none => .ok 0
    | .ok (some checkpoint) => .ok checkpoint.generation

def newBuffer (config : NodeConfig) (table : TableIdent) (metadata : TableMetadata)
    (committedGeneration : Nat) : TableBuffer F α :=
  (TableBuffer.new table metadata committedGeneration config.maxBytes config.softWatermarkBytes
    config.maxBytes_le).withCommittedGrace config.committedGrace

/-- The request that an operation moves. -/
def NodeOp.movedRequest : NodeOp α → Option Nat
  | .load index _ | .createNamespace index _ | .autoCreate index _ _ | .enterRegistry index
  | .reserve index _ | .writeRecord index | .answer index _ | .endStream index => some index
  | _ => none

namespace NodeState

variable (s : NodeState F α)

/-- The number of an incarnation in the order of creation. -/
def birth (tableUuid : Uuid) : Nat := s.created.idxOf tableUuid

variable (table : TableIdent)

/-- The first half of `get_or_load`: take the registered buffer or go to the catalog. -/
def lookup (created : Bool) : RequestPhase α :=
  match s.registry table with
  | some buffer => .holding buffer
  | none => .loading created

/-- Let a request go on in another phase. -/
def goOn (index : Nat) (request : Request α) (phase : RequestPhase α) :
    NodeState F α :=
  { s with requests := { request with phase := phase } :: s.requests.eraseIdx index }

/-- Let a request end. -/
def finish (index : Nat) : NodeState F α :=
  { s with requests := s.requests.eraseIdx index }

/-- Create a table in the catalog unless the name is taken. The catalog draws a new
identifier for it. -/
def catalogCreate (metadata : TableMetadata) :
    Option (NodeState F α) :=
  match s.catalog table with
  | some _ => some s
  | none =>
    if metadata.tableUuid ∈ s.created then none
    else some { s with
      catalog := fun other => if other = table then some metadata else s.catalog other
      created := s.created ++ [metadata.tableUuid] }

/-- Replace a buffer object. -/
def setBuffer (index : Nat) (buffer : TableBuffer F α) : NodeState F α :=
  { s with heap := s.heap.set index buffer }

/-- Register a buffer, as the second half of `get_or_load` does on a miss. -/
def register (buffer : TableBuffer F α) : NodeState F α :=
  { s with
    heap := s.heap ++ [buffer]
    registry := fun other => if other = table then some s.heap.length else s.registry other }

/-- Evict the buffer of a table. -/
def unregister : NodeState F α :=
  { s with registry := fun other => if other = table then none else s.registry other }

/-- Tell a client that its batch is accepted. -/
def acknowledge (tableUuid : Uuid) (receipt : IngestReceipt) : NodeState F α :=
  { s with acked := s.acked ++ [⟨table, tableUuid, receipt⟩] }

/-- One step of a request. -/
def requestStep (config : NodeConfig) (s : NodeState F α) (index : Nat) (request : Request α) :
    NodeOp α → Option (NodeState F α)
  | .load _ failure =>
    match request.phase, failure with
    | .loading _, some _ => some (s.finish index)
    | .loading created, none =>
      match s.catalog request.table with
      | none =>
        if request.transport = .rest ∧ created = false then
          some (s.goOn index request .creatingNamespace)
        else some (s.finish index)
      | some metadata =>
        match loadedGeneration config request.table metadata with
        | .error _ => some (s.finish index)
        | .ok generation => some (s.goOn index request (.loaded metadata generation))
    | _, _ => none
  | .createNamespace _ ok =>
    match request.phase with
    | .creatingNamespace =>
      some (if ok then s.goOn index request .creatingTable else s.finish index)
    | _ => none
  | .autoCreate _ metadata outcome =>
    match request.phase, outcome with
    | .creatingTable, .answered =>
      (s.catalogCreate request.table metadata).map fun s' =>
        s'.goOn index request (s'.lookup request.table true)
    | .creatingTable, .lost =>
      (s.catalogCreate request.table metadata).map fun s' => s'.finish index
    | .creatingTable, .failed => some (s.finish index)
    | _, _ => none
  | .enterRegistry _ =>
    match request.phase with
    | .loaded metadata generation =>
      match s.registry request.table with
      | some buffer => some (s.goOn index request (.holding buffer))
      | none =>
        let buffer := newBuffer config request.table metadata generation
        some ((s.register request.table buffer).goOn index request (.holding s.heap.length))
    | _ => none
  | .reserve _ preparation =>
    match request.phase with
    | .holding buffer =>
      match s.heap[buffer]? with
      | none => none
      | some t =>
        match enterAppend t request.table preparation with
        | (.waits (.walAppend pending), t') =>
          some ((s.setBuffer buffer t').goOn index request
            (.appending buffer pending false))
        | (_, _) => some (s.finish index)
    | _ => none
  | .writeRecord _ =>
    match request.phase with
    | .appending buffer pending false =>
      let entry : Logged α :=
        ⟨pending.record, s.birth (pending.record.header.tableUuid.getD .nil)⟩
      some ({ s with log := s.log.write entry }.goOn index request
        (.appending buffer pending true))
    | _ => none
  | .answer _ result =>
    match request.phase with
    | .appending buffer pending written =>
      match s.heap[buffer]? with
      | none => none
      | some t =>
        match result, written with
        | .ok _, false => none
        | _, _ =>
          let (receipt, t') := finishAppend t config.writerId config.errorText
            request.transport pending result
          let s' := s.setBuffer buffer t'
          match receipt, request.transport with
          | .error _, _ => some (s'.finish index)
          | .ok receipt, .rest =>
            some ((s'.acknowledge request.table t.metadata.tableUuid receipt).finish
              index)
          | .ok receipt, .flight =>
            some ((s'.acknowledge request.table t.metadata.tableUuid receipt).goOn
              index request (.holding buffer))
    | _ => none
  | .endStream _ =>
    match request.phase with
    | .holding _ => some (s.finish index)
    | _ => none
  | _ => none

/-- One step of a statement after its catalog call. -/
def statementStep (index : Nat) (statement : Statement) :
    NodeOp α → Option (NodeState F α)
  | .evict _ =>
    match statement with
    | .create table =>
      some { s.unregister table with statements := s.statements.eraseIdx index }
    | .drop table birth false =>
      some { s.unregister table with
        statements := s.statements.set index (.drop table birth true) }
    | .drop _ _ true => none
  | .tombstone _ batchId createdAtMs written =>
    match statement with
    | .drop table birth true =>
      let entry : Logged α := ⟨WalRecord.dropTombstone table batchId createdAtMs, birth⟩
      some { s with
        log := if written then s.log.write entry else s.log
        statements := s.statements.eraseIdx index }
    | _ => none
  | _ => none

/-- Start again after a crash. Recovery writes a tombstone for tables that the catalog
does not know any more. -/
def restart (dropped : List (TableIdent × Uuid × Int)) : NodeState F α :=
  { s with
    heap := []
    registry := fun _ => none
    requests := []
    statements := []
    log := dropped.foldl
      (fun log table => log.write
        ⟨WalRecord.dropTombstone table.1 table.2.1 table.2.2, s.created.length⟩)
      s.log.reopen }

def next (config : NodeConfig) (s : NodeState F α) (op : NodeOp α) : Option (NodeState F α) :=
  match op with
  | .arrive transport table =>
    some { s with requests := ⟨transport, table, s.lookup table false⟩ :: s.requests }
  | .load index _ | .createNamespace index _ | .autoCreate index _ _ | .enterRegistry index
  | .reserve index _ | .writeRecord index | .answer index _ | .endStream index =>
    match s.requests[index]? with
    | none => none
    | some request => s.requestStep config index request op
  | .createTable table metadata outcome =>
    match s.catalog table, outcome with
    | some _, _ => some s
    | none, .failed => some s
    | none, .lost => s.catalogCreate table metadata
    | none, .answered =>
      (s.catalogCreate table metadata).map fun s' =>
        { s' with statements := .create table :: s'.statements }
  | .dropTable table outcome =>
    match s.catalog table, outcome with
    | none, _ => some s
    | some _, .failed => some s
    | some _, .lost =>
      some { s with catalog := fun other => if other = table then none else s.catalog other }
    | some metadata, .answered =>
      some { s with
        catalog := fun other => if other = table then none else s.catalog other
        statements := .drop table (s.birth metadata.tableUuid) false :: s.statements }
  | .evict index | .tombstone index _ _ _ =>
    match s.statements[index]? with
    | none => none
    | some statement => s.statementStep index statement op
  | .rotate => some { s with log := s.log.rotate }
  | .gc committed removeFails count =>
    some { s with log := s.log.collect committed removeFails count }
  | .crash dropped =>
    if ∀ table ∈ dropped, s.catalog table.1 = none then some (s.restart dropped) else none

/-- Runs that begin with any tables in the catalog, an empty log and no request. -/
def machine (F α : Type) (config : NodeConfig) : Machine (NodeState F α) (NodeOp α) where
  start s := (∀ table metadata, s.catalog table = some metadata → metadata.tableUuid ∈ s.created) ∧
    (∀ table table' metadata metadata', s.catalog table = some metadata →
      s.catalog table' = some metadata' → metadata.tableUuid = metadata'.tableUuid →
      table = table') ∧
    s = ⟨s.catalog, s.created, [], fun _ => none, [], [], ⟨[], none, 1⟩, []⟩
  next := next config

/-- An operation that moves a request is a step of that request. -/
theorem requestStep_of_next {config : NodeConfig} {s s' : NodeState F α} {op : NodeOp α}
    {i : Nat} (hmoved : op.movedRequest = some i) (hn : s.next config op = some s') :
    ∃ req, s.requests[i]? = some req ∧ s.requestStep config i req op = some s' := by
  have hs : s.next config op = s.requests[i]?.bind fun req => s.requestStep config i req op := by
    cases op <;> cases hmoved <;> cases h : s.requests[i]? <;> simp [NodeState.next, h]
  exact Option.bind_eq_some_iff.mp (hs ▸ hn)

/-- Everything that a step of a request can do. -/
inductive RequestMove (config : NodeConfig) (s : NodeState F α) (index : Nat)
    (request : Request α) : NodeState F α → Prop
  | ends (hphase : request.phase.pending? = none) : RequestMove config s index request
      (s.finish index)
  | waits {phase : RequestPhase α} (hphase : request.phase.pending? = none)
      (hnext : phase = .creatingNamespace ∨ phase = .creatingTable) :
      RequestMove config s index request (s.goOn index request phase)
  | loads {metadata : TableMetadata} {generation : Nat}
      (hphase : request.phase.pending? = none) (hcatalog : s.catalog request.table = some metadata)
      (hgeneration : loadedGeneration config request.table metadata = .ok generation) :
      RequestMove config s index request (s.goOn index request (.loaded metadata generation))
  | creates {metadata : TableMetadata} {s' : NodeState F α}
      (hphase : request.phase.pending? = none)
      (hcreate : s.catalogCreate request.table metadata = some s') :
      RequestMove config s index request (s'.goOn index request (s'.lookup request.table true))
  | createsUnseen {metadata : TableMetadata} {s' : NodeState F α}
      (hphase : request.phase.pending? = none)
      (hcreate : s.catalogCreate request.table metadata = some s') :
      RequestMove config s index request (s'.finish index)
  | finds {buffer : Nat} (hphase : request.phase.pending? = none)
      (hregistry : s.registry request.table = some buffer) :
      RequestMove config s index request (s.goOn index request (.holding buffer))
  | registers {metadata : TableMetadata} {generation : Nat}
      (hphase : request.phase = .loaded metadata generation)
      (hregistry : s.registry request.table = none) :
      RequestMove config s index request
        ((s.register request.table (newBuffer config request.table metadata generation)).goOn
          index request (.holding s.heap.length))
  | reserves {buffer : Nat} {t t' : TableBuffer F α} {batch : IngestBatch α}
      {reservation : Reservation} (hphase : request.phase = .holding buffer)
      (hheap : s.heap[buffer]? = some t)
      (hreserve : t.reserve batch.batch = .ok (reservation, t')) :
      RequestMove config s index request ((s.setBuffer buffer t').goOn index request
        (.appending buffer ⟨reservation, walRecord t request.table batch reservation⟩ false))
  | writes {buffer : Nat} {pending : PendingAppend α}
      (hphase : request.phase = .appending buffer pending false) :
      RequestMove config s index request
        ({ s with log := s.log.write ⟨pending.record,
          s.birth (pending.record.header.tableUuid.getD .nil)⟩ }.goOn index request
          (.appending buffer pending true))
  | fails {buffer : Nat} {pending : PendingAppend α} {written : Bool} {t : TableBuffer F α}
      (hphase : request.phase = .appending buffer pending written)
      (hheap : s.heap[buffer]? = some t) :
      RequestMove config s index request
        ((s.setBuffer buffer (t.releaseReservation pending.reservation)).finish index)
  | accepts {buffer : Nat} {pending : PendingAppend α} {t : TableBuffer F α}
      (hphase : request.phase = .appending buffer pending true)
      (hheap : s.heap[buffer]? = some t) (stays : Bool) :
      RequestMove config s index request
        (let t' := (t.insertReservedAt pending.record.header.batchId pending.reservation
          pending.record.header.createdAtMs pending.record.batch).2
        let s' := (s.setBuffer buffer t').acknowledge request.table t.metadata.tableUuid
          ⟨pending.record.header.batchId, config.writerId, pending.reservation.generation,
            pending.record.header.rowCount⟩
        if stays then s'.goOn index request (.holding buffer) else s'.finish index)

lemma requestStep_move {config : NodeConfig} {s s' : NodeState F α} {i : Nat}
    {req : Request α} {op : NodeOp α} (h : s.requestStep config i req op = some s') :
    RequestMove config s i req s' := by
  have hn : ∀ {ph : RequestPhase α}, req.phase = ph → ph.pending? = none →
      req.phase.pending? = none := fun h hp => h ▸ hp
  unfold requestStep at h
  split at h
  case h_1 =>
    split at h
    case h_1 hph =>
      cases h
      exact .ends (hn hph rfl)
    case h_2 hph =>
      split at h
      · split_ifs at h
        · cases h
          exact .waits (hn hph rfl) (Or.inl rfl)
        · cases h
          exact .ends (hn hph rfl)
      · rename_i md hcat
        split at h
        · cases h
          exact .ends (hn hph rfl)
        · rename_i gen hgen
          cases h
          exact .loads (hn hph rfl) hcat hgen
    case h_3 => cases h
  case h_2 =>
    split at h
    case h_1 hph =>
      cases h
      split_ifs
      · exact .waits (hn hph rfl) (Or.inr rfl)
      · exact .ends (hn hph rfl)
    case h_2 => cases h
  case h_3 =>
    split at h
    case h_1 hph =>
      obtain ⟨created, hcr, rfl⟩ := Option.map_eq_some_iff.mp h
      exact .creates (hn hph rfl) hcr
    case h_2 hph =>
      obtain ⟨created, hcr, rfl⟩ := Option.map_eq_some_iff.mp h
      exact .createsUnseen (hn hph rfl) hcr
    case h_3 hph =>
      cases h
      exact .ends (hn hph rfl)
    case h_4 => cases h
  case h_4 =>
    split at h
    case h_1 hph =>
      split at h
      · rename_i buf hreg
        cases h
        exact .finds (hn hph rfl) hreg
      · rename_i hreg
        cases h
        exact .registers hph hreg
    case h_2 => cases h
  case h_5 prep =>
    split at h
    case h_1 buf hph =>
      split at h
      · cases h
      · rename_i t hh
        rcases enterAppend_cases t req.table prep with
          ⟨hpd, _⟩ | ⟨batch, rsv, t', _, hrsv, heq⟩
        · split at h
          · rename_i pend t' heq
            simp [heq, Progress.pending?, IngestAwait.pending?] at hpd
          · cases h
            exact .ends (hn hph rfl)
        · rw [heq] at h
          cases h
          exact .reserves hph hh hrsv
    case h_2 => cases h
  case h_6 =>
    split at h
    case h_1 hph =>
      cases h
      exact .writes hph
    case h_2 => cases h
  case h_7 res =>
    split at h
    case h_1 buf pend wr hph =>
      split at h
      · cases h
      · rename_i t hh
        cases res with
        | error e =>
          cases h
          exact .fails hph hh
        | ok _ =>
          cases wr with
          | false => cases h
          | true =>
            cases htra : req.transport with
            | rest =>
              simp only [finishAppend, htra] at h
              cases h
              exact .accepts hph hh false
            | flight =>
              simp only [finishAppend, htra] at h
              cases h
              exact .accepts hph hh true
    case h_2 => cases h
  case h_8 =>
    split at h
    case h_1 hph =>
      cases h
      exact .ends (hn hph rfl)
    case h_2 => cases h
  case h_9 => cases h

section

def plainTable : TableIdent := ⟨"ns", "t"⟩

def plainMetadata (uuid : Nat) : TableMetadata := ⟨.ofNat uuid, none, 0, [], OrdMap.empty⟩

/-- A node whose tables have no writer checkpoints. -/
def plainConfig : NodeConfig where
  writerId := ⟨.ofNat 3⟩
  codec := ⟨fun _ => "", fun _ => .error "", fun _ => .error "", fun _ => .error "", by simp⟩
  errorText _ := ""
  maxBytes := 100
  softWatermarkBytes := 80
  committedGrace := 0
  maxBytes_le := hundred_le_u64Max

/-- A row request for a table that is not registered, up to its answer. -/
def plainIngest (batchId : Nat) : List (NodeOp Nat) :=
  [ .arrive .rest plainTable, .load 0 none, .enterRegistry 0,
    .reserve 0 (.ready ⟨.ofNat batchId, 0, Gc.plainAppend.batch, none⟩), .writeRecord 0,
    .answer 0 (.ok ()) ]

end

end NodeState

end TeoDB.Node

import TeoDB.Ingest.Flush.Ownership
import TeoDB.Storage.Wal.PreparedStore

/-!
# Ambiguous intents

A publication that ends with an unknown state may still land. Until the exact commit
is proved, or the catalog has moved past the writer epoch of the intent, its sidecar
must stay, its rows must stay in flight, and no other commit may cover its range.

The status loop publishes an ambiguous intent again, and a definite rejection of that
second attempt retires the intent. `ambiguous_intent_kept` shows that nothing else does.

## Implementation notes

The state keeps the commit of every request sent to the catalog, and every publication that is
ambiguous, with its rows and its sidecar. A file operation whose future was dropped still runs
later.
-/

namespace TeoDB.Ingest.Flush

open TeoDB.Core Lib Lib.Async Catalog Storage.Wal Ingest.Buffer

variable {F α : Type}

/-- An ambiguous publication that is not proved yet. -/
structure Ambiguous (F α : Type) where
  request : CommitAppend F
  rows : List (BufferEntry α)
  sidecar : Option (PreparedFlush F)

/-- A file operation that outlived its task. -/
inductive LateOp (F : Type) where
  | persist (prepared : PreparedFlush F)
  | remove (tableUuid : Uuid)

structure IntentNode (F α : Type) where
  buffer : TableBuffer F α
  prepared : PreparedDir F
  checkpointEpoch : Nat
  requested : List CommitId
  ambiguous : List (Ambiguous F α)
  late : List (LateOp F)

inductive IntentChoice (F α : Type) where
  | reply (reply : Reply F α)
  | file (fault : Option FileFault)
  | ingest (op : BufferOp α)
  | epoch (epoch : Nat)
  | late (index : Nat) (fault : Option FileFault)
  | cancel

/-- The tasks of a running node. -/
inductive ServingTask where
  | flushOnce
  | recheckBlocked
deriving DecidableEq

namespace IntentNode

variable (s : IntentNode F α)

/-- The catalog may still apply an ambiguous publication of this epoch. -/
def mayLand (entry : Ambiguous F α) : Bool :=
  s.checkpointEpoch ≤ entry.request.identity.writerEpoch.value

/-- Forget what is ambiguous about a commit that is proved. -/
def prove (commitId : CommitId) : IntentNode F α :=
  { s with ambiguous := s.ambiguous.filter fun entry =>
      entry.request.identity.commitId ≠ commitId }

/-- A request has been sent to the catalog. -/
def issue (request : CommitAppend F) : IntentNode F α :=
  { s with requested := s.requested ++ [request.identity.commitId] }

def noteCommit (request : CommitAppend F) :
    TeoDBResult TableMetadata → IntentNode F α
  | .ok _ => s.prove request.identity.commitId
  | .error error =>
    if (ambiguity error).isSome then
      { s with ambiguous := s.ambiguous ++
          [⟨request, s.buffer.state.inFlight, s.prepared request.tableUuid⟩] }
    else s

def noteStatus (request : CommitAppend F) :
    TeoDBResult CommitStatus → IntentNode F α
  | .ok (.committed _) => s.prove request.identity.commitId
  | _ => s

section

variable [BEq F] (store : PreparedConfig F)

def runLate (s : IntentNode F α) (fault : Option FileFault) : LateOp F → IntentNode F α
  | .persist prepared =>
    { s with prepared := (PreparedStore.persist store s.prepared prepared fault).2 }
  | .remove tableUuid =>
    { s with prepared := (PreparedStore.remove s.prepared tableUuid fault).2 }

def respond (choice : IntentChoice F α) (s : IntentNode F α) :
    (c : Call F α) → Option (Answer c × IntentNode F α)
  | .commitAppend request =>
    match choice with
    | .reply (.metadata result) => some (result, (s.noteCommit request result).issue request)
    | _ => none
  | .checkAppendStatus request =>
    match choice with
    | .reply (.status result) => some (result, (s.noteStatus request result).issue request)
    | _ => none
  | .persistPrepared prepared =>
    match choice with
    | .file fault =>
      let (result, dir) := PreparedStore.persist store s.prepared prepared fault
      some (result, { s with prepared := dir })
    | _ => none
  | .removePrepared tableUuid =>
    match choice with
    | .file fault =>
      let (result, dir) := PreparedStore.remove s.prepared tableUuid fault
      some (result, { s with prepared := dir })
    | _ => none
  | c =>
    match choice with
    | .reply reply => (reply.answer c).map fun a => (a, s)
    | _ => none

/-- A dropped future leaves its request or its file operation running. -/
def abandoned (s : IntentNode F α) : Call F α → IntentNode F α
  | .commitAppend request | .checkAppendStatus request => s.issue request
  | .persistPrepared prepared => { s with late := s.late ++ [.persist prepared] }
  | .removePrepared tableUuid => { s with late := s.late ++ [.remove tableUuid] }
  | _ => s

/-- What other tasks and the catalog do. -/
def disturb (choice : IntentChoice F α) (s : IntentNode F α) : Option (IntentNode F α) :=
  match choice with
  | .ingest op => some { s with buffer := op.apply s.buffer }
  | .epoch epoch => some { s with checkpointEpoch := max s.checkpointEpoch epoch }
  | .late index fault =>
    s.late[index]?.map fun op => { runLate store s fault op with late := s.late.eraseIdx index }
  | _ => none

end

def bufferRef (ident : TableIdent) : BufferRef (IntentNode F α) F α where
  get := buffer
  set s t := { s with buffer := t }
  get_set _ _ := rfl
  ident := ident

/-- A node that flushes and rechecks one table. -/
def serving [BEq F] (cfg : FlushConfig F) (store : PreparedConfig F) (ident : TableIdent) :
    Host (io F α) (IntentNode F α) TeoDBError ServingTask (IntentChoice F α) where
  start s := s.requested = [] ∧ s.ambiguous = [] ∧ s.late = []
  program
    | .flushOnce => do
      let _ ← flushOnce (bufferRef ident) cfg
    | .recheckBlocked => do
      let _ ← recheckBlocked (bufferRef ident) cfg
  answer := respond store
  abandon choice s c :=
    match choice with
    | .cancel => if c.awaits then some (s.abandoned c) else none
    | _ => none
  interfere := disturb store

/-- A publication is not definitely rejected while an earlier attempt of the same commit
may still land. -/
def sparesAnswer (c : Call F α) (choice : IntentChoice F α) : Bool :=
  match c, choice with
  | .commitAppend request, .reply (.metadata (.error error)) =>
    commitReaction error == .keep || commitReaction error == .block ||
      s.ambiguous.all fun entry =>
        entry.request.identity.commitId != request.identity.commitId || !s.mayLand entry
  | _, _ => true

/-- A removal that outlived its task does not run while an intent of its table may
still land. -/
def sparesLate (choice : IntentChoice F α) : Bool :=
  match choice with
  | .late index _ =>
    match s.late[index]? with
    | some (.remove tableUuid) =>
      s.ambiguous.all fun entry => entry.request.tableUuid != tableUuid || !s.mayLand entry
    | _ => true
  | _ => true

def spares (c : Host.Config (io F α) (IntentNode F α) TeoDBError) :
    Host.Turn ServingTask (IntentChoice F α) → Bool
  | .answer choice =>
    match c.task with
    | some (.call call _) => sparesAnswer c.state call choice
    | _ => true
  | .interfere choice => sparesLate c.state choice
  | _ => true

/-- The condition on one turn. -/
def Spares (c : Host.Config (io F α) (IntentNode F α) TeoDBError)
    (turn : Host.Turn ServingTask (IntentChoice F α)) : Prop := spares c turn = true

instance (c : Host.Config (io F α) (IntentNode F α) TeoDBError)
    (turn : Host.Turn ServingTask (IntentChoice F α)) : Decidable (Spares c turn) :=
  inferInstanceAs (Decidable (_ = true))

/-- An ambiguous intent that may still land keeps its sidecar and rows, and no publication overlaps
it under another commit. -/
structure Kept (c : Host.Config (io F α) (IntentNode F α) TeoDBError) (entry : Ambiguous F α) :
    Prop where
  sidecar : ∀ q, entry.sidecar = some q → c.state.prepared entry.request.tableUuid = some q
  rows : c.state.buffer.state.inFlight = entry.rows
  request : ∀ request k, c.task = some (.call (.commitAppend request) k) →
    request.identity.commitId ≠ entry.request.identity.commitId →
    ∀ generation, ¬ (request.identity.generations.contains generation = true ∧
      entry.request.identity.generations.contains generation = true)

/-- The intent of an ambiguous publication owns the buffer with its rows. -/
structure Held (s : IntentNode F α) (entry : Ambiguous F α) : Prop where
  owner : ∃ p, s.buffer.preparedFlush = some p ∧ buildCommitRequest p = entry.request
  rows : s.buffer.state.inFlight = entry.rows
  sidecar : ∀ q, entry.sidecar = some q → s.prepared entry.request.tableUuid = some q

/-- Everything ambiguous that may still land is held. -/
def Holds : Prop :=
  ∀ entry ∈ s.ambiguous, s.mayLand entry = true → s.Held entry

/-- Nothing ambiguous may still land. -/
def Settled : Prop := ∀ entry ∈ s.ambiguous, s.mayLand entry = false

lemma Settled.holds {s : IntentNode F α} (h : s.Settled) : s.Holds := by
  intro en hmem hl
  rw [h en hmem] at hl
  cases hl

lemma Holds.settled {s : IntentNode F α} (h : s.Holds) (hi : s.buffer.preparedFlush = none) :
    s.Settled := by
  intro en hmem
  by_contra hland
  obtain ⟨p, hp, _⟩ := (h en hmem (eq_true_of_ne_false hland)).owner
  rw [hi] at hp
  cases hp

/-- An entry that may still land is an attempt of the intent that owns the buffer. -/
lemma Holds.request_eq {s : IntentNode F α} (h : s.Holds) {p : PreparedFlush F}
    (hp : s.buffer.preparedFlush = some p) {en : Ambiguous F α} (hmem : en ∈ s.ambiguous)
    (hl : s.mayLand en = true) : en.request = buildCommitRequest p := by
  obtain ⟨q, hq, heq⟩ := (h en hmem hl).owner
  rw [hp] at hq
  cases hq
  exact heq.symm

/-- What others may do within the condition. -/
structure Disturbs (s s' : IntentNode F α) : Prop where
  buffer : Beside s.buffer s'.buffer
  ambiguous : s'.ambiguous = s.ambiguous
  checkpointEpoch : s.checkpointEpoch ≤ s'.checkpointEpoch
  prepared : ∀ entry ∈ s.ambiguous, s'.mayLand entry = true →
    ∀ q, s.prepared entry.request.tableUuid = some q →
      s'.prepared entry.request.tableUuid = some q

namespace Disturbs

variable {s s' s'' : IntentNode F α}

lemma refl (s : IntentNode F α) : Disturbs s s :=
  ⟨Beside.refl _, rfl, le_refl _, fun _ _ _ _ h => h⟩

lemma mayLand (h : Disturbs s s') {en : Ambiguous F α} (hl : s'.mayLand en = true) :
    s.mayLand en = true :=
  decide_eq_true (h.checkpointEpoch.trans (of_decide_eq_true hl))

lemma trans (h : Disturbs s s') (h' : Disturbs s' s'') : Disturbs s s'' where
  buffer := h.buffer.trans h'.buffer
  ambiguous := h'.ambiguous.trans h.ambiguous
  checkpointEpoch := h.checkpointEpoch.trans h'.checkpointEpoch
  prepared entry hmem hland q hq :=
    h'.prepared entry (h.ambiguous ▸ hmem) hland q (h.prepared entry hmem (h'.mayLand hland) q hq)

lemma holds (h : Disturbs s s') (hs : s.Holds) : s'.Holds := by
  intro en hmem hl
  rw [h.ambiguous] at hmem
  obtain ⟨⟨p, hp, heq⟩, hr, hsc⟩ := hs en hmem (h.mayLand hl)
  exact ⟨⟨p, h.buffer.preparedFlush.trans hp, heq⟩, h.buffer.inFlight.trans hr,
    fun q hq => h.prepared en hmem hl q (hsc q hq)⟩

lemma settled (h : Disturbs s s') (hs : s.Settled) : s'.Settled := by
  intro en hmem
  rw [h.ambiguous] at hmem
  by_contra hland
  have := h.mayLand (eq_true_of_ne_false hland)
  rw [hs en hmem] at this
  cases this

end Disturbs

section

variable {s : IntentNode F α}

/-- A proved commit was the only one that could be held. -/
lemma Holds.prove (h : s.Holds) {p : PreparedFlush F} (hp : s.buffer.preparedFlush = some p) :
    (s.prove p.commitId).Settled := by
  intro entry hmem
  obtain ⟨hmem, hne⟩ := List.mem_filter.mp hmem
  by_contra hland
  have heq := h.request_eq hp hmem (eq_true_of_ne_false hland)
  exact of_decide_eq_true hne (by rw [heq]; rfl)

lemma Holds.noteCommit (h : s.Holds) {p : PreparedFlush F}
    (hp : s.buffer.preparedFlush = some p) (e : TeoDBError) :
    (s.noteCommit (buildCommitRequest p) (.error e)).Holds ∧
      (s.noteCommit (buildCommitRequest p) (.error e)).buffer.preparedFlush = some p := by
  rw [IntentNode.noteCommit]
  split_ifs
  · refine ⟨fun en hmem hl => ?_, hp⟩
    rcases mem_concat_iff.mp hmem with hold | rfl
    · exact ⟨(h en hold hl).owner, (h en hold hl).rows, (h en hold hl).sidecar⟩
    · exact ⟨⟨p, hp, rfl⟩, rfl, fun q hq => hq⟩
  · exact ⟨h, hp⟩

/-- What an intent holds stays when only its description changes. -/
lemma Holds.withBuffer {t : TableBuffer F α} (h : s.Holds)
    (howner : t.preparedFlush = s.buffer.preparedFlush)
    (hr : t.state.inFlight = s.buffer.state.inFlight) : ({ s with buffer := t }).Holds := by
  intro en hmem hl
  obtain ⟨⟨p, hp, heq⟩, hin, hsc⟩ := h en hmem hl
  exact ⟨⟨p, howner.trans hp, heq⟩, hr.trans hin, hsc⟩

lemma ambiguity_of_remove {dir : PreparedDir F} {uuid : Uuid} {ft : Option FileFault}
    {e : TeoDBError} (h : (PreparedStore.remove dir uuid ft).1 = .error e) :
    ambiguity e = none := by
  cases ft with
  | none => cases h
  | some ft =>
    cases h
    rfl

lemma Holds.issue (h : s.Holds) (req : CommitAppend F) : (s.issue req).Holds :=
  fun en hmem hl =>
    ⟨(h en hmem hl).owner, (h en hmem hl).rows, (h en hmem hl).sidecar⟩

lemma Holds.abandoned (h : s.Holds) (c : Call F α) : (s.abandoned c).Holds := by
  have hla : ∀ late, ({ s with late := late }).Holds := fun late en hmem hl =>
    ⟨(h en hmem hl).owner, (h en hmem hl).rows, (h en hmem hl).sidecar⟩
  cases c with
  | commitAppend req => exact h.issue req
  | checkAppendStatus req => exact h.issue req
  | persistPrepared p => exact hla _
  | removePrepared uuid => exact hla _
  | _ => exact h

/-- The calls whose answers change the state. -/
def changes : Call F α → Bool
  | .commitAppend _ | .checkAppendStatus _ | .persistPrepared _ | .removePrepared _ => true
  | _ => false

end

lemma preparedFlush_drain {t : TableBuffer F α} (h : t.preparedFlush = none) :
    t.drainPendingToInFlight.2.preparedFlush = none := by
  rw [TableBuffer.preparedFlush_eq_none_iff] at h ⊢
  exact t.drainPendingToInFlight_flushState.trans h

section

variable [BEq F] {store : PreparedConfig F} {s s' : IntentNode F α}

lemma preparedFlush_of_setPrepared {t t' : TableBuffer F α} {p : PreparedFlush F}
    (h : t.setPrepared p = .ok t') (hn : t.preparedFlush = none) : t'.preparedFlush = some p := by
  obtain ⟨_, ⟨_, rfl⟩ | ⟨ho, _⟩⟩ := TableBuffer.setPrepared_ok h
  · rfl
  · rw [TableBuffer.preparedFlush_eq_none_iff.mp hn] at ho
    cases ho

/-- The answers that the condition allows. -/
def kept (store : PreparedConfig F) : Setting (io F α) (IntentNode F α) where
  visible s event := s.Holds ∧
    match event with
    | .call (.commitAppend request) => ∀ entry ∈ s.ambiguous, s.mayLand entry = true →
        request.identity.commitId = entry.request.identity.commitId
    | _ => True
  interferes := Disturbs
  answers s c a s' := ∃ choice, sparesAnswer s c choice = true ∧
    respond store choice s c = some (a, s')

section

variable {choice : IntentChoice F α}

lemma respond_commitAppend {req : CommitAppend F} {a : TeoDBResult TableMetadata}
    (h : respond store choice s (.commitAppend req) = some (a, s')) :
    choice = .reply (.metadata a) ∧ s' = (s.noteCommit req a).issue req := by
  cases choice with
  | reply rp =>
    cases rp with
    | metadata result =>
      cases h
      exact ⟨rfl, rfl⟩
    | _ => cases h
  | _ => cases h

lemma respond_checkAppendStatus {req : CommitAppend F} {a : TeoDBResult CommitStatus}
    (h : respond store choice s (.checkAppendStatus req) = some (a, s')) :
    s' = (s.noteStatus req a).issue req := by
  cases choice with
  | reply rp =>
    cases rp with
    | status result =>
      cases h
      rfl
    | _ => cases h
  | _ => cases h

lemma respond_persistPrepared {p : PreparedFlush F} {a : TeoDBResult Unit}
    (h : respond store choice s (.persistPrepared p) = some (a, s')) :
    ∃ ft, a = (PreparedStore.persist store s.prepared p ft).1 ∧
      s' = { s with prepared := (PreparedStore.persist store s.prepared p ft).2 } := by
  cases choice with
  | file ft =>
    cases h
    exact ⟨ft, rfl, rfl⟩
  | _ => cases h

lemma respond_removePrepared {uuid : Uuid} {a : TeoDBResult Unit}
    (h : respond store choice s (.removePrepared uuid) = some (a, s')) :
    ∃ ft, a = (PreparedStore.remove s.prepared uuid ft).1 ∧
      s' = { s with prepared := (PreparedStore.remove s.prepared uuid ft).2 } := by
  cases choice with
  | file ft =>
    cases h
    exact ⟨ft, rfl, rfl⟩
  | _ => cases h

lemma respond_other {c : Call F α} {a : Answer c} (hc : changes c = false)
    (h : respond store choice s c = some (a, s')) : s' = s ∧ Plain c a := by
  have hreply : ∀ rp : Reply F α, (rp.answer c).map (fun a => (a, s)) = some (a, s') →
      s' = s ∧ Plain c a := by
    intro rp h
    obtain ⟨b, hb, heq⟩ := Option.map_eq_some_iff.mp h
    cases heq
    exact ⟨rfl, plain_of_answer hb⟩
  cases c with
  | commitAppend | checkAppendStatus | persistPrepared | removePrepared => cases hc
  | _ =>
    cases choice with
    | reply rp => exact hreply rp h
    | _ => cases h

end

/-- Nothing but a publication needs more than what is held. -/
lemma Holds.visible {ev : (io F α).Event} (h : s.Holds)
    (hevent : ∀ req, ev ≠ .call (.commitAppend req)) : (kept store).visible s ev := by
  refine ⟨h, ?_⟩
  split
  · exact absurd rfl (hevent _)
  · trivial

lemma Holds.persist (h : s.Holds) (p : PreparedFlush F) (ft : Option FileFault) :
    ({ s with prepared := (PreparedStore.persist store s.prepared p ft).2 }).Holds := by
  intro en hmem hl
  obtain ⟨howner, hr, hsc⟩ := h en hmem hl
  exact ⟨howner, hr, fun q hq => PreparedStore.persist_of_some (hsc q hq)⟩

end

/-- A store that accepts the data file of `eventsIntent`. -/
def eventsStore : PreparedConfig Unit where
  expectedWriter := ⟨.ofNat 1⟩
  maxFiles := 1
  maxBytes := 100
  uuidToString := PlainText.codec.uuidToString
  head _ :=
    { scheme := .local
      bucket := none
      key := "data/" ++ PlainText.codec.uuidToString (.ofNat 1) ++ "/" ++
        PlainText.codec.uuidToString (.ofNat 2) ++ "-0.parquet"
      content := .data
      format := .parquet
      recordCount := 1 }
  payloadLen _ := 10
  readBack := .ok

def eventsNode : IntentNode Unit Unit := ⟨committedBuffer, fun _ => none, 1, [], [], []⟩

def eventsServing : Host (io Unit Unit) (IntentNode Unit Unit) TeoDBError ServingTask
    (IntentChoice Unit Unit) :=
  serving plainConfig.toFlushConfig eventsStore eventsTable

lemma eventsServing_start : eventsServing.machine.start ⟨eventsNode, none⟩ :=
  ⟨⟨rfl, rfl, rfl⟩, rfl⟩

/-- One record is flushed into the given number of files. -/
def persistingFlush (files : Nat) : List (Host.Turn ServingTask (IntentChoice Unit Unit)) :=
  [ .interfere (.ingest (.insertWithGenerationAt (.ofNat 3) 2 0 eventsBatch)),
    .spawn .flushOnce, .act, .act, .act, .act,
    .answer (.reply (.identity ⟨⟨.ofNat 1⟩, ⟨1⟩⟩)),
    .answer (.reply (.commitId ⟨.ofNat 2⟩)),
    .answer (.reply (.files (.ok (List.replicate files ())))),
    .answer (.reply (.millis 0)),
    .act ]

/-- What is observed of a node and of its ambiguous publications. -/
structure Observed where
  inFlight : List Nat
  sidecar : Bool
  rows : List (List Nat)
  mayLand : List Bool
deriving DecidableEq

def observed (c : Host.Config (io Unit Unit) (IntentNode Unit Unit) TeoDBError) : Observed where
  inFlight := generations c.state.buffer.state.inFlight
  sidecar := (c.state.prepared eventsUuid).isSome
  rows := c.state.ambiguous.map fun entry => generations entry.rows
  mayLand := c.state.ambiguous.map c.state.mayLand

end IntentNode

end TeoDB.Ingest.Flush

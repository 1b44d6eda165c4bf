import TeoDB.Core.File
import TeoDB.Storage.Wal.Prepared

/-!
# The hot buffer of one table

Ingested batches wait in `pending`, the set being published is `inFlight`, and
generations handed out before the log append are reserved until the append is
resolved. The flush state machine records which prepared intent owns the
in-flight set.

## Implementation notes

Every operation runs under one write lock in the source and is one function here. Readings of the
clock are arguments. Sums of sizes wrap as `u64` sums do.
-/

namespace TeoDB.Ingest.Buffer

open TeoDB.Core Lib Lib.MachineInt Storage.Wal

/-- One ingested batch. -/
structure BufferEntry (α : Type) where
  batchId : Uuid
  generation : Nat
  createdAtMs : Int
  batch : RecordBatch α
  byteSize : Nat
deriving DecidableEq

/-- Result of a successful insert. -/
structure InsertOk where
  generation : Nat
  backpressureSignal : Bool
deriving DecidableEq

structure BlockedFlush (F : Type) where
  prepared : PreparedFlush F
  sinceMs : Int
  lastError : String
  lastErrorClass : String
  statusCheckAttempts : Nat
  lastRecheckMs : Int

inductive TableFlushState (F : Type) where
  | idle
  | prepared (flush : PreparedFlush F)
  | blocked (flush : BlockedFlush F)

/-- A capacity and generation reservation taken before the log append. -/
structure Reservation where
  generation : Nat
  byteSize : Nat
deriving DecidableEq

structure BufferState (F α : Type) where
  nextGen : Nat
  committedHighWater : Nat
  pending : List (BufferEntry α)
  inFlight : List (BufferEntry α)
  recentlyCommitted : List (Nat × List (BufferEntry α))
  pendingBytes : Nat
  inFlightBytes : Nat
  reservedBytes : Nat
  reservedGenerations : OrdMap Nat Nat
  flushState : TableFlushState F

structure TableBuffer (F α : Type) where
  ident : TableIdent
  state : BufferState F α
  metadata : TableMetadata
  maxBytes : Nat
  softWatermarkBytes : Nat
  committedGrace : Nat
  maxBytes_le : maxBytes ≤ u64Max

variable {F α : Type}

def batchByteSize (batch : RecordBatch α) : Nat :=
  wrappingSum (batch.columns.map Column.bufferMemorySize)

/-- Sum of the recorded sizes of entries. -/
def entryBytes (entries : List (BufferEntry α)) : Nat :=
  wrappingSum (entries.map BufferEntry.byteSize)

def generations (entries : List (BufferEntry α)) : List Nat :=
  entries.map BufferEntry.generation

lemma entryBytes_append (a b : List (BufferEntry α)) :
    entryBytes (a ++ b) = wrappingAdd (entryBytes a) (entryBytes b) := by
  rw [entryBytes, List.map_append, wrappingSum_append, entryBytes, entryBytes]

lemma entryBytes_perm {a b : List (BufferEntry α)} (h : a.Perm b) : entryBytes a = entryBytes b :=
  wrappingSum_perm (h.map _)

/-- The debug rendering of an optional generation. -/
def debugGeneration : Option Nat → String
  | none => "None"
  | some g => s!"Some({g})"

namespace TableBuffer

def new (ident : TableIdent) (metadata : TableMetadata) (committedGeneration : Nat)
    (maxBytes softWatermarkBytes : Nat) (h : maxBytes ≤ u64Max) : TableBuffer F α where
  ident := ident
  state :=
    { nextGen := saturatingAdd committedGeneration 1
      committedHighWater := committedGeneration
      pending := []
      inFlight := []
      recentlyCommitted := []
      pendingBytes := 0
      inFlightBytes := 0
      reservedBytes := 0
      reservedGenerations := OrdMap.empty
      flushState := .idle }
  metadata := metadata
  maxBytes := maxBytes
  softWatermarkBytes := softWatermarkBytes
  committedGrace := 0
  maxBytes_le := h

variable (t : TableBuffer F α)

def withCommittedGrace (grace : Nat) : TableBuffer F α :=
  { t with committedGrace := grace }

def withFlushState (flushState : TableFlushState F) :
    TableBuffer F α :=
  { t with state := { t.state with flushState := flushState } }

def ensureCapacity (byteSize : Nat) (includeReserved : Bool) :
    TeoDBResult Unit :=
  let total := do
    let value ← checkedAdd t.state.pendingBytes t.state.inFlightBytes
    let value ← checkedAdd value t.state.reservedBytes
    checkedAdd value byteSize
  let held := t.state.pendingBytes + t.state.inFlightBytes
  match total with
  | none => .error (.backpressure s!"buffer byte accounting overflow for {t.ident}")
  | some total =>
    if total ≤ t.maxBytes then .ok ()
    else if includeReserved then
      .error (.backpressure
        (s!"buffer for {t.ident} would exceed {t.maxBytes}B limit " ++
          s!"(currently {held}B, reserved {t.state.reservedBytes}B)"))
    else
      .error (.backpressure
        s!"buffer for {t.ident} would exceed {t.maxBytes}B limit (currently {held}B)")

def ensureGenerationAvailable (generation : Nat) :
    TeoDBResult Unit :=
  if generation = 0 ∨ generation = u64Max then
    .error (.writeProtocol t.ident "writer-local generation space is exhausted")
  else .ok ()

def admitEntry (entry : BufferEntry α) : InsertOk × TableBuffer F α :=
  let pendingBytes := wrappingAdd t.state.pendingBytes entry.byteSize
  let state :=
    { t.state with
      pending := t.state.pending ++ [entry]
      pendingBytes := pendingBytes
      nextGen := max t.state.nextGen (entry.generation + 1) }
  (⟨entry.generation,
      wrappingAdd pendingBytes t.state.inFlightBytes > t.softWatermarkBytes⟩,
    { t with state := state })

/-- Insert a batch at the next generation. -/
def insert (batchId : Uuid) (batch : RecordBatch α)
    (createdAtMs : Int) : TeoDBResult (InsertOk × TableBuffer F α) := do
  let byteSize := batchByteSize batch
  t.ensureCapacity byteSize false
  t.ensureGenerationAvailable t.state.nextGen
  return t.admitEntry ⟨batchId, t.state.nextGen, createdAtMs, batch, byteSize⟩

/-- Put the next generation on the books for a batch of the given size. -/
def addReservation (byteSize : Nat) : TableBuffer F α :=
  { t with
    state :=
      { t.state with
        nextGen := t.state.nextGen + 1
        reservedBytes := wrappingAdd t.state.reservedBytes byteSize
        reservedGenerations := t.state.reservedGenerations.insert t.state.nextGen byteSize } }

/-- Reserve capacity and a generation before the log append. -/
def reserve (batch : RecordBatch α) :
    TeoDBResult (Reservation × TableBuffer F α) :=
  let byteSize := batchByteSize batch
  match t.state.flushState with
  | .blocked flush => .error (.flushBlocked t.ident flush.prepared.commitId)
  | _ => do
    t.ensureCapacity byteSize true
    t.ensureGenerationAvailable t.state.nextGen
    return (⟨t.state.nextGen, byteSize⟩, t.addReservation byteSize)

/-- Take a reservation off the books, if it is on them. -/
def forgetReservation (reservation : Reservation) :
    TableBuffer F α :=
  match t.state.reservedGenerations.find? reservation.generation with
  | none => t
  | some byteSize =>
    { t with
      state :=
        { t.state with
          reservedGenerations := t.state.reservedGenerations.erase reservation.generation
          reservedBytes := saturatingSub t.state.reservedBytes byteSize } }

/-- Release a reservation whose log append failed. -/
def releaseReservation (reservation : Reservation) :
    TableBuffer F α :=
  t.forgetReservation reservation

/-- Insert a batch under a reservation; it cannot fail. -/
def insertReservedAt (batchId : Uuid) (reservation : Reservation) (createdAtMs : Int)
    (batch : RecordBatch α) : InsertOk × TableBuffer F α :=
  (t.forgetReservation reservation).admitEntry
    ⟨batchId, reservation.generation, createdAtMs, batch, batchByteSize batch⟩

/-- Insert a batch with the generation recorded in the log. -/
def insertWithGenerationAt (batchId : Uuid) (generation : Nat) (createdAtMs : Int)
    (batch : RecordBatch α) :
    TeoDBResult (InsertOk × TableBuffer F α) := do
  let byteSize := batchByteSize batch
  t.ensureCapacity byteSize false
  t.ensureGenerationAvailable generation
  return t.admitEntry ⟨batchId, generation, createdAtMs, batch, byteSize⟩

/-- Whether an entry may leave `pending` past the lowest reserved generation. -/
def mayDrain (lowestReserved : Option Nat) (entry : BufferEntry α) : Bool :=
  match lowestReserved with
  | none => true
  | some reserved => entry.generation < reserved

/-- Move pending entries to in-flight and return the set to flush. -/
def drainPendingToInFlight :
    List (BufferEntry α) × TableBuffer F α :=
  if t.state.inFlight ≠ [] then (t.state.inFlight, t)
  else if t.state.pending = [] then ([], t)
  else
    let lowestReserved := t.state.reservedGenerations.minKey?
    let (drained, remaining) := t.state.pending.partition (mayDrain lowestReserved)
    if drained = [] then
      ([], { t with
        state := { t.state with pending := remaining, pendingBytes := entryBytes remaining } })
    else
      (drained, { t with
        state :=
          { t.state with
            pending := remaining
            inFlight := drained
            inFlightBytes := entryBytes drained
            pendingBytes := entryBytes remaining } })

/-- Entries published at `pushedAt` stay readable until the grace has passed. -/
def retainRecent (pushedAt now : Nat) :
    List (Nat × List (BufferEntry α)) :=
  let recent :=
    if t.committedGrace ≠ 0 ∧ t.state.inFlight ≠ [] then
      t.state.recentlyCommitted ++ [(pushedAt, t.state.inFlight)]
    else t.state.recentlyCommitted
  recent.filter fun r => now - r.1 ≤ t.committedGrace

/-- The in-flight entries leave the buffer as committed up to `genHi`. -/
def commitInFlight (genHi : Nat) (newMetadata : TableMetadata)
    (pushedAt now : Nat) : TableBuffer F α :=
  { t with
    state :=
      { t.state with
        inFlight := []
        recentlyCommitted := t.retainRecent pushedAt now
        inFlightBytes := 0
        committedHighWater := max t.state.committedHighWater genHi
        flushState := .idle }
    metadata := newMetadata }

/-- Mark the in-flight entries as committed. -/
def markCommitted (genHi : Nat) (newMetadata : TableMetadata)
    (pushedAt now : Nat) : TeoDBResult (TableBuffer F α) :=
  match (generations t.state.inFlight).max? with
  | some actualHi =>
    if actualHi ≠ genHi then
      .error (.writeProtocol t.ident
        (s!"flush completion generation {genHi} does not match " ++
          s!"in-flight high generation {actualHi}"))
    else .ok (t.commitInFlight genHi newMetadata pushedAt now)
  | none =>
    if genHi > t.state.committedHighWater then
      .error (.writeProtocol t.ident
        s!"flush completion for generation {genHi} has no matching in-flight entries")
    else .ok (t.commitInFlight genHi newMetadata pushedAt now)

def mergeInFlightBackToPending (state : BufferState F α) : BufferState F α :=
  { state with
    inFlight := []
    pending := state.inFlight ++ state.pending
    pendingBytes := wrappingAdd state.pendingBytes state.inFlightBytes
    inFlightBytes := 0 }

/-- Roll back work that failed before an intent was installed. -/
def rollbackUnpreparedFlush : TeoDBResult (TableBuffer F α) :=
  match t.state.flushState with
  | .idle => .ok { t with state := mergeInFlightBackToPending t.state }
  | _ =>
    .error (.writeProtocol t.ident
      "cannot roll back an unprepared flush while a prepared owner exists")

def preparedFlush : Option (PreparedFlush F) :=
  match t.state.flushState with
  | .prepared flush => some flush
  | .blocked flush => some flush.prepared
  | .idle => none

def blockedFlush : Option (BlockedFlush F) :=
  match t.state.flushState with
  | .blocked flush => some flush
  | _ => none

def refreshMetadata (newMetadata : TableMetadata) : TableBuffer F α :=
  { t with metadata := newMetadata }

section

variable [BEq F]

/-- Whether an intent already owns the flush state. -/
def ownsState (flushState : TableFlushState F) (prepared : PreparedFlush F) : Bool :=
  match flushState with
  | .prepared existing => existing == prepared
  | .blocked existing => existing.prepared == prepared
  | .idle => false

variable (t : TableBuffer F α)

variable (prepared : PreparedFlush F)

/-- Record the intent that will publish the in-flight set. -/
def setPrepared :
    TeoDBResult (TableBuffer F α) :=
  let actualLo := (generations t.state.inFlight).min?
  let actualHi := (generations t.state.inFlight).max?
  if actualLo ≠ some prepared.generations.lo ∨ actualHi ≠ some prepared.generations.hi ∨
      prepared.tableUuid ≠ t.metadata.tableUuid then
    .error (.writeProtocol t.ident
      (s!"prepared range {prepared.generations.lo}-{prepared.generations.hi} does not match " ++
        s!"in-flight range {debugGeneration actualLo}-{debugGeneration actualHi}"))
  else
    match t.state.flushState with
    | .idle => .ok (t.withFlushState (.prepared prepared))
    | flushState =>
      if ownsState flushState prepared then .ok t
      else
        .error (.writeProtocol t.ident "a different prepared flush already owns this table")

/-- Reclaim exactly the range of a durable intent as in-flight during startup. -/
def restorePrepared :
    TeoDBResult Unit × TableBuffer F α :=
  if t.state.inFlight ≠ [] then
    (.error (.writeProtocol t.ident
      "cannot restore prepared intent over existing in-flight entries"), t)
  else if prepared.generations.hi ≤ t.state.committedHighWater then
    (.ok (), t.withFlushState (.prepared prepared))
  else
    let (restored, remaining) :=
      t.state.pending.partition fun entry => prepared.generations.contains entry.generation
    let actualLo := (generations restored).min?
    let actualHi := (generations restored).max?
    if actualLo ≠ some prepared.generations.lo ∨ actualHi ≠ some prepared.generations.hi then
      let pending := (restored ++ remaining).mergeSort fun a b => a.generation ≤ b.generation
      (.error (.writeProtocol t.ident
        (s!"prepared sidecar range {prepared.generations.lo}-{prepared.generations.hi} is not " ++
          s!"fully represented in WAL (found {debugGeneration actualLo}-" ++
          s!"{debugGeneration actualHi})")),
        { t with state := { t.state with pending := pending, pendingBytes := entryBytes pending } })
    else
      (.ok (), { t with
        state :=
          { t.state with
            inFlightBytes := entryBytes restored
            pendingBytes := entryBytes remaining
            inFlight := restored
            pending := remaining
            flushState := .prepared prepared } })

def markFlushBlockedWithClass (lastError lastErrorClass : String) (statusCheckAttempts : Nat)
    (now : Int) :
    TeoDBResult (TableBuffer F α) :=
  let blockedSince (sinceMs : Int) : TableBuffer F α :=
    t.withFlushState (.blocked
      ⟨prepared, sinceMs, lastError, lastErrorClass, statusCheckAttempts, now⟩)
  match t.state.flushState with
  | .prepared existing =>
    if existing == prepared then .ok (blockedSince now)
    else .error (.writeProtocol t.ident "cannot block a flush that does not own prepared state")
  | .blocked existing =>
    if existing.prepared == prepared then .ok (blockedSince existing.sinceMs)
    else .error (.writeProtocol t.ident "cannot block a flush that does not own prepared state")
  | .idle => .error (.writeProtocol t.ident "cannot block a flush that does not own prepared state")

def markFlushBlocked (lastError : String) (statusCheckAttempts : Nat)
    (now : Int) : TeoDBResult (TableBuffer F α) :=
  t.markFlushBlockedWithClass prepared lastError "commit_status_unknown" statusCheckAttempts now

/-- Record a further inconclusive check of a blocked flush. -/
def markBlockedRecheck (lastError : String) (attempts : Nat) (now : Int) :
    TableBuffer F α :=
  match t.state.flushState with
  | .blocked existing =>
    t.withFlushState (.blocked
      { existing with
        lastError := lastError
        lastErrorClass := "commit_status_unknown"
        statusCheckAttempts := attempts
        lastRecheckMs := now })
  | _ => t

/-- Roll back an exact intent after its publication was definitively rejected. -/
def markFlushFailed :
    TeoDBResult (TableBuffer F α) :=
  if ownsState t.state.flushState prepared then
    .ok ({ t with state := mergeInFlightBackToPending t.state }.withFlushState .idle)
  else
    .error (.writeProtocol t.ident "cannot fail a flush that does not own prepared state")

end

section

variable {t t' : TableBuffer F α}

lemma ensureCapacity_eq_ok {sz : Nat} {includeReserved : Bool} :
    t.ensureCapacity sz includeReserved = .ok () ↔
      t.state.pendingBytes + t.state.inFlightBytes + t.state.reservedBytes + sz ≤ t.maxBytes := by
  have hmax := t.maxBytes_le
  by_cases hfit : t.state.pendingBytes + t.state.inFlightBytes + t.state.reservedBytes + sz ≤ u64Max
  · have h1 : t.state.pendingBytes + t.state.inFlightBytes ≤ u64Max := by omega
    have h2 : t.state.pendingBytes + t.state.inFlightBytes + t.state.reservedBytes ≤ u64Max := by
      omega
    simp only [ensureCapacity, checkedAdd, if_pos h1, if_pos h2, if_pos hfit, Option.bind_eq_bind,
      Option.bind_some]
    split_ifs <;> simp_all
  · have ho : (do
        let v ← checkedAdd t.state.pendingBytes t.state.inFlightBytes
        let v ← checkedAdd v t.state.reservedBytes
        checkedAdd v sz) = none := by
      simp only [Option.bind_eq_bind, Option.bind_eq_none_iff, checkedAdd_eq_some]
      rintro _ ⟨_, rfl⟩ _ ⟨_, rfl⟩
      simp [checkedAdd, hfit]
    simp only [ensureCapacity, ho, reduceCtorEq, false_iff]
    omega

lemma ensureGenerationAvailable_eq_ok {gen : Nat} :
    t.ensureGenerationAvailable gen = .ok () ↔ gen ≠ 0 ∧ gen ≠ u64Max := by
  simp [ensureGenerationAvailable, not_or]

/-- What both checks before an admission establish. -/
structure Admissible (t : TableBuffer F α) (generation : Nat) (byteSize : Nat) : Prop where
  fits : t.state.pendingBytes + t.state.inFlightBytes + t.state.reservedBytes + byteSize ≤
    t.maxBytes
  positive : generation ≠ 0
  below : generation ≠ u64Max

private lemma checks_eq_ok {gen : Nat} {sz : Nat} {b : Bool} {β : Type} {x y : β} : (do
        t.ensureCapacity sz b
        t.ensureGenerationAvailable gen
        return x : TeoDBResult β) = .ok y ↔
      t.Admissible gen sz ∧ x = y := by
  constructor
  · intro h
    cases hc : t.ensureCapacity sz b with
    | error e => simp [hc, bind, Except.bind] at h
    | ok u =>
      cases hg : t.ensureGenerationAvailable gen with
      | error e => simp [hc, hg, bind, Except.bind] at h
      | ok v =>
        have hav := ensureGenerationAvailable_eq_ok.mp hg
        refine ⟨⟨ensureCapacity_eq_ok.mp hc, hav.1, hav.2⟩, ?_⟩
        simpa [hc, hg, bind, Except.bind, pure, Except.pure] using h
  · rintro ⟨h, rfl⟩
    rw [ensureCapacity_eq_ok.mpr h.fits, ensureGenerationAvailable_eq_ok.mpr ⟨h.positive, h.below⟩]
    rfl

lemma insert_eq_ok {batchId : Uuid} {bt : RecordBatch α} {created : Int}
    {r : InsertOk × TableBuffer F α} :
    t.insert batchId bt created = .ok r ↔ t.Admissible t.state.nextGen (batchByteSize bt) ∧
      t.admitEntry ⟨batchId, t.state.nextGen, created, bt, batchByteSize bt⟩ = r :=
  checks_eq_ok

lemma insertWithGenerationAt_eq_ok {batchId : Uuid} {gen : Nat}
    {bt : RecordBatch α} {created : Int} {r : InsertOk × TableBuffer F α} :
    t.insertWithGenerationAt batchId gen created bt = .ok r ↔ t.Admissible gen (batchByteSize bt) ∧
      t.admitEntry ⟨batchId, gen, created, bt, batchByteSize bt⟩ = r :=
  checks_eq_ok

lemma reserve_eq_ok {bt : RecordBatch α} {r : Reservation × TableBuffer F α} :
    t.reserve bt = .ok r ↔ (∀ flush, t.state.flushState ≠ .blocked flush) ∧
      t.Admissible t.state.nextGen (batchByteSize bt) ∧
      (⟨t.state.nextGen, batchByteSize bt⟩, t.addReservation (batchByteSize bt)) = r := by
  cases h : t.state.flushState with
  | blocked flush => simp [reserve, h]
  | idle => simpa [reserve, h] using checks_eq_ok
  | prepared flush => simpa [reserve, h] using checks_eq_ok

lemma forgetReservation_of_find {rsv : Reservation} {sz : Nat}
    (h : t.state.reservedGenerations.find? rsv.generation = some sz) :
    t.forgetReservation rsv =
      { t with
        state :=
          { t.state with
            reservedGenerations := t.state.reservedGenerations.erase rsv.generation
            reservedBytes := t.state.reservedBytes - sz } } := by
  simp [forgetReservation, h, saturatingSub]

@[simp] lemma releaseReservation_ident (t : TableBuffer F α) (rsv : Reservation) :
    (t.releaseReservation rsv).ident = t.ident := by
  unfold releaseReservation forgetReservation
  split <;> rfl

@[simp] lemma releaseReservation_metadata (t : TableBuffer F α) (rsv : Reservation) :
    (t.releaseReservation rsv).metadata = t.metadata := by
  unfold releaseReservation forgetReservation
  split <;> rfl

@[simp] lemma insertReservedAt_ident (t : TableBuffer F α) (batchId : Uuid)
    (rsv : Reservation) (created : Int) (bt : RecordBatch α) :
    (t.insertReservedAt batchId rsv created bt).2.ident = t.ident :=
  t.releaseReservation_ident rsv

@[simp] lemma insertReservedAt_metadata (t : TableBuffer F α) (batchId : Uuid)
    (rsv : Reservation) (created : Int) (bt : RecordBatch α) :
    (t.insertReservedAt batchId rsv created bt).2.metadata = t.metadata :=
  t.releaseReservation_metadata rsv

lemma preparedFlush_eq_none_iff : t.preparedFlush = none ↔ t.state.flushState = .idle := by
  cases h : t.state.flushState <;> simp [preparedFlush, h]

lemma preparedFlush_of_blockedFlush {b : BlockedFlush F} (h : t.blockedFlush = some b) :
    t.preparedFlush = some b.prepared := by
  cases hs : t.state.flushState <;> simp_all [blockedFlush, preparedFlush]

lemma markBlockedRecheck_cases (t : TableBuffer F α) (err : String) (n : Nat) (now : Int) :
    t.markBlockedRecheck err n now = t ∨
      ∃ b b', t.state.flushState = .blocked b ∧ b'.prepared = b.prepared ∧
        t.markBlockedRecheck err n now = t.withFlushState (.blocked b') := by
  unfold markBlockedRecheck
  cases hs : t.state.flushState with
  | idle => exact Or.inl rfl
  | prepared flush => exact Or.inl rfl
  | blocked b =>
    exact Or.inr ⟨b, ⟨b.prepared, b.sinceMs, err, "commit_status_unknown", n, now⟩, rfl, rfl, rfl⟩

@[simp] lemma markBlockedRecheck_preparedFlush (t : TableBuffer F α) (err : String)
    (n : Nat) (now : Int) : (t.markBlockedRecheck err n now).preparedFlush = t.preparedFlush := by
  rcases t.markBlockedRecheck_cases err n now with heq | ⟨b, b', hb, hs, heq⟩
  · rw [heq]
  · rw [heq]
    simp [preparedFlush, withFlushState, hb, hs]

@[simp] lemma drainPendingToInFlight_flushState (t : TableBuffer F α) :
    t.drainPendingToInFlight.2.state.flushState = t.state.flushState := by
  unfold drainPendingToInFlight
  split_ifs
  · rfl
  · rfl
  · dsimp only
    split_ifs <;> rfl

lemma drainPendingToInFlight_of_inFlight (h : t.state.inFlight ≠ []) :
    t.drainPendingToInFlight = (t.state.inFlight, t) := by
  simp [drainPendingToInFlight, h]

/-- Pending entries below every reserved generation. -/
def drainable (t : TableBuffer F α) : List (BufferEntry α) :=
  t.state.pending.filter (mayDrain t.state.reservedGenerations.minKey?)

/-- Pending entries that wait for a reservation to be resolved. -/
def heldBack (t : TableBuffer F α) : List (BufferEntry α) :=
  t.state.pending.filter fun e => !mayDrain t.state.reservedGenerations.minKey? e

/-- Draining an idle buffer whose byte counts are exact splits `pending` at the
lowest reserved generation. -/
theorem drainPendingToInFlight_of_idle (h : t.state.inFlight = [])
    (hpd : t.state.pendingBytes = entryBytes t.state.pending)
    (hinF : t.state.inFlightBytes = 0) :
    t.drainPendingToInFlight = (t.drainable,
        { t with
          state :=
            { t.state with
              pending := t.heldBack
              inFlight := t.drainable
              inFlightBytes := entryBytes t.drainable
              pendingBytes := entryBytes t.heldBack } }) := by
  obtain ⟨ident, state, md, maxBytes, softWatermarkBytes, committedGrace, hmax⟩ := t
  obtain ⟨nextGen, committedHighWater, pend, inFlight, recentlyCommitted, pendingBytes,
    inFlightBytes, reservedBytes, reservedGenerations, flushState⟩ := state
  simp only at h hpd hinF
  subst h hpd hinF
  by_cases hp : pend = []
  · simp [drainPendingToInFlight, drainable, heldBack, hp, entryBytes, wrappingSum]
  · by_cases hd : pend.filter (mayDrain reservedGenerations.minKey?) = []
    · simp [drainPendingToInFlight, drainable, heldBack, hp, hd, List.partition_eq_filter_filter,
        Function.comp_def, entryBytes, wrappingSum]
    · simp [drainPendingToInFlight, drainable, heldBack, hp, hd, List.partition_eq_filter_filter,
        Function.comp_def]

lemma markCommitted_eq_ok {genHi : Nat} {md' : TableMetadata} {pushedAt now : Nat} :
    t.markCommitted genHi md' pushedAt now = .ok t' ↔
      ((generations t.state.inFlight).max? = some genHi ∨
        (t.state.inFlight = [] ∧ genHi ≤ t.state.committedHighWater)) ∧
      t.commitInFlight genHi md' pushedAt now = t' := by
  cases h : (generations t.state.inFlight).max? with
  | none =>
    have hnil : t.state.inFlight = [] := by simpa [generations] using h
    by_cases hhi : genHi > t.state.committedHighWater
    · simp [markCommitted, h, hhi]
    · simp [markCommitted, generations, hhi, hnil, not_lt.mp hhi]
  | some actualHi =>
    have hnil : t.state.inFlight ≠ [] := by
      rintro hnil
      simp [hnil, generations] at h
    by_cases hhi : actualHi = genHi
    · simp [markCommitted, h, hhi]
    · simp [markCommitted, h, hhi, hnil]

/-- Completion fails only with a violation of the write protocol. -/
theorem markCommitted_error {genHi : Nat} {md' : TableMetadata} {pushedAt now : Nat}
    {e : TeoDBError} (h : t.markCommitted genHi md' pushedAt now = .error e) :
    ∃ msg, e = .writeProtocol t.ident msg := by
  unfold markCommitted at h
  split at h <;> split_ifs at h <;> exact ⟨_, (Except.error.inj h).symm⟩

lemma rollbackUnpreparedFlush_eq_ok : t.rollbackUnpreparedFlush = .ok t' ↔
      t.state.flushState = .idle ∧ { t with state := mergeInFlightBackToPending t.state } = t' := by
  cases h : t.state.flushState <;> simp [rollbackUnpreparedFlush, h]

variable [BEq F] {prepared : PreparedFlush F}

lemma setPrepared_ok (h : t.setPrepared prepared = .ok t') :
    ((generations t.state.inFlight).min? = some prepared.generations.lo ∧
      (generations t.state.inFlight).max? = some prepared.generations.hi ∧
      prepared.tableUuid = t.metadata.tableUuid) ∧
    ((t.state.flushState = .idle ∧ t.withFlushState (.prepared prepared) = t') ∨
      (ownsState t.state.flushState prepared = true ∧ t = t')) := by
  unfold setPrepared at h
  dsimp only at h
  split_ifs at h with hrg
  · simp only [not_or, not_not] at hrg
    refine ⟨hrg, ?_⟩
    cases hs : t.state.flushState with
    | idle => exact Or.inl ⟨rfl, by simpa [hs] using h⟩
    | prepared flush =>
      rw [hs] at h
      dsimp only at h
      split_ifs at h with hown
      exact Or.inr ⟨hown, by simpa using h⟩
    | blocked flush =>
      rw [hs] at h
      dsimp only at h
      split_ifs at h with hown
      exact Or.inr ⟨hown, by simpa using h⟩

lemma markFlushBlockedWithClass_ok {err lastErrorClass : String} {n : Nat} {now : Int}
    (h : t.markFlushBlockedWithClass prepared err lastErrorClass n now = .ok t') :
    ownsState t.state.flushState prepared = true ∧ ∃ sinceMs, t.withFlushState (.blocked
      ⟨prepared, sinceMs, err, lastErrorClass, n, now⟩) = t' := by
  unfold markFlushBlockedWithClass at h
  dsimp only at h
  cases hs : t.state.flushState with
  | idle => simp [hs] at h
  | prepared flush =>
    rw [hs] at h
    dsimp only at h
    split_ifs at h with hown
    exact ⟨hown, _, by simpa using h⟩
  | blocked flush =>
    rw [hs] at h
    dsimp only at h
    split_ifs at h with hown
    exact ⟨hown, _, by simpa using h⟩

lemma markFlushBlockedWithClass_error {err lastErrorClass : String} {n : Nat}
    {now : Int} {e : TeoDBError}
    (h : t.markFlushBlockedWithClass prepared err lastErrorClass n now =
      .error e) : ∃ msg, e = .writeProtocol t.ident msg := by
  unfold markFlushBlockedWithClass at h
  dsimp only at h
  split at h
  · split_ifs at h
    exact ⟨_, (Except.error.inj h).symm⟩
  · split_ifs at h
    exact ⟨_, (Except.error.inj h).symm⟩
  · exact ⟨_, (Except.error.inj h).symm⟩

lemma markFlushFailed_error {e : TeoDBError} (h : t.markFlushFailed prepared = .error e) :
    ∃ msg, e = .writeProtocol t.ident msg := by
  rw [markFlushFailed] at h
  split_ifs at h
  exact ⟨_, (Except.error.inj h).symm⟩

lemma markFlushFailed_eq_ok : t.markFlushFailed prepared = .ok t' ↔
      ownsState t.state.flushState prepared = true ∧
      ({ t with state := mergeInFlightBackToPending t.state }.withFlushState .idle) = t' := by
  rw [markFlushFailed]
  split_ifs with h <;> simp [h]

end

end TableBuffer

end TeoDB.Ingest.Buffer

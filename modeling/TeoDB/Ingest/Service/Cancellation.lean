import TeoDB.Ingest.Buffer.Fence
import TeoDB.Ingest.Service.Ingest

/-!
# Ingest requests that are dropped while they wait

A request future can be dropped at any waiting place. Its local values go away
with it, and a reservation is a plain value without a destructor: nothing takes
it off the books of the buffer. A request dropped during its log append
therefore leaves its generation reserved for good, and no later drain passes it.

When no request is dropped at that place, the reservations on the books are
exactly those of the requests that wait for the log.
-/

namespace TeoDB.Ingest.Service

open TeoDB.Core Lib Lib.MachineInt Storage.Wal Ingest.Buffer

variable {F α : Type}

/-- A table buffer and the requests that are active on it. -/
structure TableIngest (F α : Type) where
  buffer : TableBuffer F α
  active : List (Transport × IngestAwait α)

/-- One uninterrupted piece of work. -/
inductive IngestStep (F α : Type) where
  | arriveRows
  | arriveFlightBatch (preparation : Preparation α)
  | answer (index : Nat) (answer : IngestAnswer α)
  | dropFuture (index : Nat)
  | flush (op : FlushOp F)

namespace TableIngest

/-- What the requests of one table have in common. -/
structure Endpoint where
  table : TableIdent
  writerId : WriterId
  errorText : TeoDBError → String

/-- The active requests when one of them has run on. -/
def advance (transport : Transport) (others : List (Transport × IngestAwait α)) :
    Progress α → List (Transport × IngestAwait α)
  | .waits place => (transport, place) :: others
  | .ends _ => others

def next [BEq F] (endpoint : Endpoint) (s : TableIngest F α) :
    IngestStep F α → Option (TableIngest F α)
  | .arriveRows => some { s with active := (.rest, .getOrLoad) :: s.active }
  | .arriveFlightBatch preparation =>
    let (progress, buffer) := enterAppend s.buffer endpoint.table preparation
    some ⟨buffer, advance .flight s.active progress⟩
  | .answer index answer =>
    match s.active[index]? with
    | none => none
    | some (transport, place) =>
      (resume s.buffer endpoint.table endpoint.writerId endpoint.errorText transport place
        answer).map fun (progress, buffer) =>
          ⟨buffer, advance transport (s.active.eraseIdx index) progress⟩
  | .dropFuture index =>
    if index < s.active.length then some { s with active := s.active.eraseIdx index } else none
  | .flush op => some { s with buffer := (s.buffer.applyFlush op).1 }

/-- Runs that begin with an empty buffer and no request. -/
def machine (F α : Type) [BEq F] (endpoint : Endpoint) :
    Machine (TableIngest F α) (IngestStep F α) where
  start s := ∃ metadata committed maxBytes softWatermarkBytes grace,
    ∃ h : maxBytes ≤ u64Max, committed ≤ u64Max ∧
      s = ⟨(TableBuffer.new endpoint.table metadata committed maxBytes softWatermarkBytes
        h).withCommittedGrace grace, []⟩
  next := next endpoint

/-- The reservation a waiting request holds, with the batch it is for. -/
def reservationOf (request : Transport × IngestAwait α) :
    Option (Reservation × RecordBatch α) :=
  request.2.pending?.map fun pending => (pending.reservation, pending.record.batch)

/-- All reservations that waiting requests hold. -/
def waiting (active : List (Transport × IngestAwait α)) : List (Reservation × RecordBatch α) :=
  active.filterMap reservationOf

/-- No request is dropped while it waits for its log append. -/
def KeepsReservations (s : TableIngest F α) : IngestStep F α → Prop
  | .dropFuture index => ∀ r ∈ s.active[index]?, reservationOf r = none
  | _ => True

instance (s : TableIngest F α) (step : IngestStep F α) :
    Decidable (s.KeepsReservations step) :=
  match step with
  | .dropFuture index =>
    match h : s.active[index]? with
    | none => .isTrue (by simp [KeepsReservations, h])
    | some r =>
      match hr : reservationOf r with
      | none => .isTrue (by simp [KeepsReservations, h, hr])
      | some _ => .isFalse (by simp [KeepsReservations, h, hr])
  | .arriveRows | .arriveFlightBatch _ | .answer _ _ | .flush _ => .isTrue trivial

/-- The books of the buffer are those of the waiting requests. -/
def Accounted (s : TableIngest F α) : Prop :=
  ∃ inserted committed, FenceRun.Ledger ⟨s.buffer, waiting s.active, inserted, committed⟩

lemma waiting_eraseIdx {active : List (Transport × IngestAwait α)} {i : Nat}
    {r : Transport × IngestAwait α} (h : active[i]? = some r) :
    (waiting active).Perm ((reservationOf r).toList ++ waiting (active.eraseIdx i)) := by
  have hp := (FenceRun.perm_of_getElem? h).filterMap reservationOf
  rw [List.filterMap_cons] at hp
  cases hr : reservationOf r <;> simpa [waiting, hr] using hp

variable {s : TableIngest F α}

lemma Accounted.of_perm (h : s.Accounted) {active : List (Transport × IngestAwait α)}
    (hp : (waiting active).Perm (waiting s.active)) : Accounted ⟨s.buffer, active⟩ := by
  obtain ⟨ins, cm, hl⟩ := h
  exact ⟨ins, cm, hl.of_held_perm hp⟩

variable {t : TableBuffer F α} {os : List (Transport × IngestAwait α)}

/-- A request that holds nothing may come, go or move on. -/
lemma Accounted.advance (h : Accounted ⟨t, os⟩) (tr : Transport) {progress : Progress α}
    (hp : progress.pending? = none) : Accounted ⟨t, TableIngest.advance tr os progress⟩ := by
  cases progress with
  | ends result => exact h
  | waits place =>
    apply h.of_perm
    simp [TableIngest.advance, waiting, reservationOf, show place.pending? = none from hp]

lemma Accounted.enterAppend (h : Accounted ⟨t, os⟩) (tbl : TableIdent) (tr : Transport)
    (prep : Preparation α) : Accounted ⟨(Service.enterAppend t tbl prep).2,
      TableIngest.advance tr os (Service.enterAppend t tbl prep).1⟩ := by
  rcases enterAppend_cases t tbl prep with
    ⟨hnone, hsame⟩ | ⟨batch, reservation, t', _, hr, heq⟩
  · rw [hsame]
    exact h.advance tr hnone
  · obtain ⟨ins, cm, hl⟩ := h
    rw [heq]
    exact ⟨ins, cm, hl.reserve hr⟩

lemma Accounted.finishAppend {tr : Transport} {pend : PendingAppend α}
    (h : Accounted ⟨t, (tr, .walAppend pend) :: os⟩) (writerId : WriterId)
    (errorText : TeoDBError → String) (ans : TeoDBResult Unit) :
    Accounted ⟨(Service.finishAppend t writerId errorText tr pend ans).2, os⟩ := by
  obtain ⟨ins, cm, hl⟩ := h
  have hhd : (waiting ((tr, .walAppend pend) :: os)).Perm
      ((pend.reservation, pend.record.batch) :: waiting os) := List.Perm.refl _
  cases ans with
  | error e => exact ⟨ins, cm, hl.releaseReservation hhd⟩
  | ok _ => exact ⟨_, cm, hl.insertReservedAt _ _ hhd⟩

variable {endpoint : Endpoint}

/-- A request that runs on from an answer keeps the books balanced. -/
lemma Accounted.resume {t t' : TableBuffer F α} {tr : Transport} {place : IngestAwait α}
    {ans : IngestAnswer α} {progress : Progress α} (h : Accounted ⟨t, (tr, place) :: os⟩)
    (hr : Service.resume t endpoint.table endpoint.writerId endpoint.errorText tr place ans =
      some (progress, t')) : Accounted ⟨t', TableIngest.advance tr os progress⟩ := by
  have hk : place.pending? = none → Accounted ⟨t, os⟩ := by
    intro hn
    apply h.of_perm
    simp [waiting, reservationOf, hn]
  rcases resume_cases hr with
    ⟨preparation, hn, heq⟩ | ⟨pending, result, rfl, hn, rfl⟩ | ⟨hplace, hn, rfl⟩
  · have hi := (hk hn).enterAppend endpoint.table tr preparation
    rwa [heq] at hi
  · exact (h.finishAppend endpoint.writerId endpoint.errorText result).advance tr hn
  · exact (hk hplace).advance tr hn

lemma Accounted.next [BEq F] {s s' : TableIngest F α} {step : IngestStep F α}
    (h : s.Accounted) (hok : s.KeepsReservations step) (hn : s.next endpoint step = some s') :
    s'.Accounted := by
  cases step with
  | arriveRows =>
    cases hn
    exact h
  | arriveFlightBatch prep =>
    cases hn
    exact h.enterAppend endpoint.table .flight prep
  | answer i ans =>
    cases hi : s.active[i]? with
    | none => simp [TableIngest.next, hi] at hn
    | some rq =>
      simp only [TableIngest.next, hi, Option.map_eq_some_iff] at hn
      obtain ⟨⟨progress, buffer⟩, hr, rfl⟩ := hn
      apply Accounted.resume _ hr
      exact h.of_perm ((FenceRun.perm_of_getElem? hi).symm.filterMap _)
  | dropFuture i =>
    simp only [TableIngest.next] at hn
    split_ifs at hn with hlt
    cases hn
    have hi : s.active[i]? = some s.active[i] := List.getElem?_eq_getElem hlt
    have hnone : reservationOf s.active[i] = none := hok _ hi
    apply h.of_perm
    simpa [hnone] using (waiting_eraseIdx hi).symm
  | flush op =>
    cases hn
    obtain ⟨ins, cm, hl⟩ := h
    exact ⟨ins, _, hl.applyFlush op⟩

lemma Accounted.of_reachable [BEq F]
    (h : (machine F α endpoint).ReachableIf KeepsReservations s) : s.Accounted := by
  apply h.invariant
  · rintro _ ⟨md, cm, maxBytes, softWatermarkBytes, grace, hmax, hc, rfl⟩
    exact ⟨[], [], FenceRun.Ledger.start _ _ _ _ hmax hc⟩
  · intro s step s' hi hok hn
    exact hi.next hok hn

/-- With no request active nothing is reserved, and a drain with nothing in flight takes every
pending entry. -/
def NoFenceLeft (s : TableIngest F α) : Prop :=
  s.active = [] →
    s.buffer.state.reservedGenerations.entries = [] ∧ s.buffer.state.reservedBytes = 0 ∧
    (s.buffer.state.inFlight = [] →
      s.buffer.drainPendingToInFlight.1 = s.buffer.state.pending)

lemma Accounted.noFenceLeft (h : s.Accounted) : s.NoFenceLeft := by
  intro hi
  obtain ⟨ins, cm, hl⟩ := h
  have hem : s.buffer.state.reservedGenerations.entries = [] := by
    have hp := hl.held_perm
    rw [hi] at hp
    exact hp.symm.eq_nil
  refine ⟨hem, ?_, ?_⟩
  · rw [hl.fenced.reservedBytes_eq, OrdMap.values, hem]
    rfl
  · intro hfli
    rcases hl.fenced.drain_cases with ⟨hne, _⟩ | ⟨_, heq⟩
    · exact absurd hfli hne
    · rw [heq]
      exact TableBuffer.drainable_of_no_reservation hem

/-- In every run that drops no request during its log append, no fence is left
behind. -/
theorem noFenceLeft_of_keepsReservations [BEq F] {endpoint : Endpoint} {s : TableIngest F α}
    (h : (machine F α endpoint).ReachableIf KeepsReservations s) : s.NoFenceLeft :=
  (Accounted.of_reachable h).noFenceLeft

section

/-- A table of one small buffer. -/
def eventsEndpoint : Endpoint := ⟨⟨"analytics", "events"⟩, ⟨Uuid.ofNat 1⟩, fun _ => "io error"⟩

def eventsStart : TableIngest Unit Unit :=
  ⟨TableBuffer.new eventsEndpoint.table ⟨Uuid.ofNat 7, none, 0, [], OrdMap.empty⟩ 0 100 80
    hundred_le_u64Max, []⟩

lemma eventsStart_start : (machine Unit Unit eventsEndpoint).start eventsStart :=
  ⟨_, 0, 100, _, 0, by decide, by decide, rfl⟩

def eventsBatch (id : Nat) : Preparation Unit :=
  .ready ⟨Uuid.ofNat id, 5, ⟨[⟨(), 10⟩], 1, 16⟩, none⟩

/-- A request waits only for its buffer when it is dropped; the next one is
accepted. -/
def harmlessDrop : List (IngestStep Unit Unit) :=
  [.arriveRows, .dropFuture 0, .arriveRows, .answer 0 (.buffer (eventsBatch 1)), .answer 0 .done]

theorem noFenceLeft_harmlessDrop :
    ∃ s, (machine Unit Unit eventsEndpoint).ReachableIf KeepsReservations s ∧
      (s.active.length, generations s.buffer.state.pending) = (0, [1]) ∧ s.NoFenceLeft := by
  have hrun : (((machine Unit Unit eventsEndpoint).guarded KeepsReservations).exec eventsStart
      harmlessDrop).map (fun s => (s.active.length, generations s.buffer.state.pending)) =
      some (0, [1]) := rfl
  obtain ⟨s, hs, hobs⟩ := Machine.existsIf_of_exec eventsStart_start hrun
  exact ⟨s, hs, hobs, noFenceLeft_of_keepsReservations hs⟩

/-- A request is dropped during its log append, and a later batch is accepted. -/
def droppedAppend : List (IngestStep Unit Unit) :=
  [ .arriveRows, .answer 0 (.buffer (eventsBatch 1)), .dropFuture 0,
    .arriveFlightBatch (eventsBatch 2), .answer 0 .done ]

/-- After the drop, generation one stays reserved, and a drain returns nothing although generation
two is pending. -/
theorem droppedAppend_leaves_fence : ∃ s, (machine Unit Unit eventsEndpoint).Reachable s ∧
      (s.active.length, s.buffer.state.reservedGenerations.keys, s.buffer.state.reservedBytes) =
        (0, [1], 10) ∧
      (s.buffer.state.inFlight.length, generations s.buffer.state.pending,
        generations s.buffer.drainPendingToInFlight.1) = (0, [2], []) ∧
      ¬ s.NoFenceLeft := by
  have hrun : ((machine Unit Unit eventsEndpoint).exec eventsStart droppedAppend).map
      (fun s => ((s.active.length, s.buffer.state.reservedGenerations.keys,
        s.buffer.state.reservedBytes), (s.buffer.state.inFlight.length,
        generations s.buffer.state.pending, generations s.buffer.drainPendingToInFlight.1))) =
      some ((0, [1], 10), (0, [2], [])) := rfl
  obtain ⟨s, hs, hobs⟩ := Machine.exists_of_exec eventsStart_start hrun
  obtain ⟨hboo, hdrain⟩ := Prod.ext_iff.mp hobs
  refine ⟨s, hs, hboo, hdrain, ?_⟩
  intro hno
  obtain ⟨hi, _, hbytes⟩ := by simpa using hboo
  have hzero := (hno hi).2.1
  omega

end

end TableIngest

end TeoDB.Ingest.Service

import TeoDB.Core.PlainText
import TeoDB.Ingest.Flush.Phases
import TeoDB.Ingest.Replay

/-!
# Who owns the in-flight rows

Flushes, rechecks and the resolution of recovered intents run one at a time on a
table buffer, with any answers of the catalog, while requests insert into it. An
installed intent always has its exact range in flight, or nothing is in flight and
its range is committed. Completion of a confirmed intent therefore never fails.

Restoring an intent takes its range out of the pending rows except when the buffer
already counts the range as committed. `flush_ownership` states both.
-/

namespace TeoDB.Ingest.Flush

open TeoDB.Core Lib Lib.Async Lib.MachineInt Catalog Storage.Wal
  Ingest.Buffer

variable {F α : Type}

/-- What others do to a buffer while a flush holds its lock. -/
inductive BufferOp (α : Type) where
  | reserve (batch : RecordBatch α)
  | releaseReservation (reservation : Reservation)
  | insertReservedAt (batchId : Uuid) (reservation : Reservation) (createdAtMs : Int)
      (batch : RecordBatch α)
  | insert (batchId : Uuid) (batch : RecordBatch α) (createdAtMs : Int)
  | insertWithGenerationAt (batchId : Uuid) (generation : Nat) (createdAtMs : Int)
      (batch : RecordBatch α)
  | refreshMetadata (newMetadata : TableMetadata)

/-- A result that replaces the buffer when it is a success. -/
def orUnchanged {β : Type} (t : TableBuffer F α) (result : TeoDBResult (β × TableBuffer F α)) :
    TableBuffer F α :=
  match result with
  | .ok r => r.2
  | .error _ => t

def BufferOp.apply (t : TableBuffer F α) : BufferOp α → TableBuffer F α
  | .reserve batch => orUnchanged t (t.reserve batch)
  | .releaseReservation reservation => t.releaseReservation reservation
  | .insertReservedAt batchId reservation createdAtMs batch =>
    (t.insertReservedAt batchId reservation createdAtMs batch).2
  | .insert batchId batch createdAtMs => orUnchanged t (t.insert batchId batch createdAtMs)
  | .insertWithGenerationAt batchId generation createdAtMs batch =>
    orUnchanged t (t.insertWithGenerationAt batchId generation createdAtMs batch)
  | .refreshMetadata newMetadata => t.refreshMetadata newMetadata

/-- The tasks that take the flush lock of a table. -/
inductive FlushTask (F : Type) where
  | flushOnce
  | recheckBlocked
  | resolvePrepared (prepared : PreparedFlush F)

inductive FlushChoice (F α : Type) where
  | reply (reply : Reply F α)
  | ingest (op : BufferOp α)
  | cancel

/-- The whole state is the buffer. -/
def theBuffer (ident : TableIdent) : BufferRef (TableBuffer F α) F α :=
  { Ref.whole with ident := ident }

/-- The flush path of one table, with any answers. -/
def flushPath [BEq F] (cfg : ReplayConfig F) (ident : TableIdent) :
    Host (io F α) (TableBuffer F α) TeoDBError (FlushTask F) (FlushChoice F α) where
  start t := ∃ metadata committed maxBytes softWatermarkBytes h grace,
    t = (TableBuffer.new ident metadata committed maxBytes softWatermarkBytes h).withCommittedGrace
      grace
  program
    | .flushOnce => do
      let _ ← flushOnce (theBuffer ident) cfg.toFlushConfig
    | .recheckBlocked => do
      let _ ← recheckBlocked (theBuffer ident) cfg.toFlushConfig
    | .resolvePrepared prepared => Replay.resolvePrepared cfg (theBuffer ident) prepared
  answer choice t c :=
    match choice with
    | .reply reply => (reply.answer c).map fun a => (a, t)
    | _ => none
  abandon choice t c :=
    match choice with
    | .cancel => if c.awaits then some t else none
    | _ => none
  interfere choice t :=
    match choice with
    | .ingest op => some (op.apply t)
    | _ => none

/-- An installed intent has exactly its range in flight, or nothing is in flight and
its range is committed. -/
def OwnsRange (t : TableBuffer F α) : Prop :=
  ∀ p, t.preparedFlush = some p →
    ((generations t.state.inFlight).min? = some p.generations.lo ∧
      (generations t.state.inFlight).max? = some p.generations.hi) ∨
    (t.state.inFlight = [] ∧ p.generations.hi ≤ t.state.committedHighWater)

/-- Restoring an intent moves exactly the pending entries of its range to in-flight, or fails and
leaves them. -/
def RestoresExactly [BEq F] (t : TableBuffer F α) (p : PreparedFlush F) : Prop :=
  ((t.restorePrepared p).1 = .ok () ∧
    (t.restorePrepared p).2.state.inFlight =
      t.state.pending.filter (fun entry => p.generations.contains entry.generation) ∧
    (t.restorePrepared p).2.state.pending =
      t.state.pending.filter fun entry => !p.generations.contains entry.generation) ∨
  ((∃ error, (t.restorePrepared p).1 = .error error) ∧
    (t.restorePrepared p).2.state.pending.Perm t.state.pending ∧
    (t.restorePrepared p).2.state.pendingBytes = t.state.pendingBytes)

/-- Pending entries lie in the range of an intent that the buffer counts as committed. -/
def Strands (t : TableBuffer F α) (p : PreparedFlush F) : Prop :=
  t.state.inFlight = [] ∧ p.generations.hi ≤ t.state.committedHighWater ∧
    ∃ entry ∈ t.state.pending, p.generations.contains entry.generation = true

/-- Ownership together with exact byte accounts. -/
structure Tracked (t : TableBuffer F α) : Prop where
  owns : OwnsRange t
  pendingBytes : t.state.pendingBytes = entryBytes t.state.pending
  inFlightBytes : t.state.inFlightBytes = entryBytes t.state.inFlight

/-- What an operation of others keeps. -/
structure Beside (t t' : TableBuffer F α) : Prop where
  inFlight : t'.state.inFlight = t.state.inFlight
  inFlightBytes : t'.state.inFlightBytes = t.state.inFlightBytes
  flushState : t'.state.flushState = t.state.flushState
  committedHighWater : t'.state.committedHighWater = t.state.committedHighWater
  pendingBytes : t.state.pendingBytes = entryBytes t.state.pending →
    t'.state.pendingBytes = entryBytes t'.state.pending

namespace Beside

variable {t t' t'' : TableBuffer F α}

lemma refl (t : TableBuffer F α) : Beside t t := ⟨rfl, rfl, rfl, rfl, id⟩

lemma trans (h : Beside t t') (h' : Beside t' t'') : Beside t t'' where
  inFlight := h'.inFlight.trans h.inFlight
  inFlightBytes := h'.inFlightBytes.trans h.inFlightBytes
  flushState := h'.flushState.trans h.flushState
  committedHighWater := h'.committedHighWater.trans h.committedHighWater
  pendingBytes hp := h'.pendingBytes (h.pendingBytes hp)

lemma preparedFlush (h : Beside t t') : t'.preparedFlush = t.preparedFlush := by
  simp [TableBuffer.preparedFlush, h.flushState]

lemma tracked (h : Beside t t') (ht : Tracked t) : Tracked t' where
  owns := by
    rw [OwnsRange, h.preparedFlush, h.inFlight, h.committedHighWater]
    exact ht.owns
  pendingBytes := h.pendingBytes ht.pendingBytes
  inFlightBytes := by rw [h.inFlightBytes, h.inFlight, ht.inFlightBytes]

lemma admitEntry (t : TableBuffer F α) (en : BufferEntry α) : Beside t (t.admitEntry en).2 where
  inFlight := rfl
  inFlightBytes := rfl
  flushState := rfl
  committedHighWater := rfl
  pendingBytes h := by
    simp [TableBuffer.admitEntry, entryBytes, h, wrappingSum_eq, wrappingAdd]

lemma forgetReservation (t : TableBuffer F α) (rsv : Reservation) :
    Beside t (t.forgetReservation rsv) := by
  unfold TableBuffer.forgetReservation
  split
  · exact refl t
  · exact ⟨rfl, rfl, rfl, rfl, id⟩

lemma apply (t : TableBuffer F α) (op : BufferOp α) : Beside t (op.apply t) := by
  cases op with
  | reserve bt =>
    cases h : t.reserve bt with
    | error e => simpa [BufferOp.apply, orUnchanged, h] using refl t
    | ok r =>
      obtain ⟨_, _, rfl⟩ := TableBuffer.reserve_eq_ok.mp h
      simpa [BufferOp.apply, orUnchanged, h] using ⟨rfl, rfl, rfl, rfl, id⟩
  | releaseReservation rsv => exact forgetReservation t rsv
  | insertReservedAt batchId rsv created bt =>
    exact (forgetReservation t rsv).trans (admitEntry _ _)
  | insert batchId bt created =>
    cases h : t.insert batchId bt created with
    | error e => simpa [BufferOp.apply, orUnchanged, h] using refl t
    | ok r =>
      obtain ⟨_, rfl⟩ := TableBuffer.insert_eq_ok.mp h
      simpa [BufferOp.apply, orUnchanged, h] using admitEntry t _
  | insertWithGenerationAt batchId gen created bt =>
    cases h : t.insertWithGenerationAt batchId gen created bt with
    | error e => simpa [BufferOp.apply, orUnchanged, h] using refl t
    | ok r =>
      obtain ⟨_, rfl⟩ := TableBuffer.insertWithGenerationAt_eq_ok.mp h
      simpa [BufferOp.apply, orUnchanged, h] using admitEntry t _
  | refreshMetadata md' => exact ⟨rfl, rfl, rfl, rfl, id⟩

end Beside

namespace Tracked

variable {t t' : TableBuffer F α}

/-- A buffer without an intent only needs exact accounts. -/
theorem of_idle (h : t.state.flushState = .idle)
    (hpd : t.state.pendingBytes = entryBytes t.state.pending)
    (hinF : t.state.inFlightBytes = entryBytes t.state.inFlight) : Tracked t where
  owns p hp := by simp [TableBuffer.preparedFlush, h] at hp
  pendingBytes := hpd
  inFlightBytes := hinF

/-- Another description of the same intent changes nothing. -/
theorem withFlushState {p : PreparedFlush F} (h : Tracked t) (hp : t.preparedFlush = some p)
    {flushState : TableFlushState F} (hs : (t.withFlushState flushState).preparedFlush = some p) :
    Tracked (t.withFlushState flushState) where
  owns q hq := by
    rw [hs] at hq
    exact h.owns q (hp.trans hq)
  pendingBytes := h.pendingBytes
  inFlightBytes := h.inFlightBytes

lemma drainPendingToInFlight (h : Tracked t) (hi : t.state.flushState = .idle) :
    Tracked t.drainPendingToInFlight.2 := by
  unfold TableBuffer.drainPendingToInFlight
  split_ifs with hfull hempty
  · exact h
  · exact h
  · dsimp only
    split_ifs
    · exact of_idle hi rfl h.inFlightBytes
    · exact of_idle hi rfl rfl

lemma mergeInFlightBackToPending (h : Tracked t) :
    entryBytes (TableBuffer.mergeInFlightBackToPending t.state).pending =
      (TableBuffer.mergeInFlightBackToPending t.state).pendingBytes := by
  simp only [TableBuffer.mergeInFlightBackToPending, entryBytes_append, h.pendingBytes,
    h.inFlightBytes, wrappingAdd_comm]

/-- Completion succeeds for the intent that owns the buffer. -/
theorem markCommitted_ok {p : PreparedFlush F} (h : Tracked t) (hp : t.preparedFlush = some p)
    (m : TableMetadata) (pushedAt now : Nat) :
    ∃ t', t.markCommitted p.generations.hi m pushedAt now = .ok t' :=
  ⟨_, TableBuffer.markCommitted_eq_ok.mpr ⟨(h.owns p hp).imp And.right id, rfl⟩⟩

lemma commitInFlight (h : Tracked t) (genHi : Nat) (m : TableMetadata) (pushedAt now : Nat) :
    Tracked (t.commitInFlight genHi m pushedAt now) :=
  of_idle rfl h.pendingBytes rfl

end Tracked

lemma restorePrepared_cases [BEq F] (t : TableBuffer F α) (p : PreparedFlush F) :
    (t.state.inFlight ≠ [] ∧ ∃ e, t.restorePrepared p = (.error e, t)) ∨
    (t.state.inFlight = [] ∧ p.generations.hi ≤ t.state.committedHighWater ∧
      t.restorePrepared p = (.ok (), t.withFlushState (.prepared p))) ∨
    (t.state.inFlight = [] ∧ ¬ p.generations.hi ≤ t.state.committedHighWater ∧
      ((∃ e pend, pend.Perm t.state.pending ∧ t.restorePrepared p = (.error e,
          { t with
            state := { t.state with pending := pend, pendingBytes := entryBytes pend } })) ∨
        ∃ restored rem, restored = t.state.pending.filter
            (fun en => p.generations.contains en.generation) ∧
          rem = t.state.pending.filter (fun en => !p.generations.contains en.generation) ∧
          (generations restored).min? = some p.generations.lo ∧
          (generations restored).max? = some p.generations.hi ∧
          t.restorePrepared p = (.ok (), { t with
            state :=
              { t.state with
                inFlightBytes := entryBytes restored
                pendingBytes := entryBytes rem
                inFlight := restored
                pending := rem
                flushState := .prepared p } }))) := by
  by_cases hin : t.state.inFlight = []
  · by_cases hhi : p.generations.hi ≤ t.state.committedHighWater
    · exact Or.inr (Or.inl ⟨hin, hhi, by simp [TableBuffer.restorePrepared, hin, hhi]⟩)
    · refine Or.inr (Or.inr ⟨hin, hhi, ?_⟩)
      simp only [TableBuffer.restorePrepared, hin, ne_eq, not_true_eq_false, if_false, hhi,
        List.partition_eq_filter_filter]
      split_ifs with hrg
      · refine Or.inl ⟨_, _, ?_, rfl⟩
        exact (List.mergeSort_perm _ _).trans (List.filter_append_perm _ _)
      · simp only [not_or, not_not] at hrg
        exact Or.inr ⟨_, _, rfl, rfl, hrg.1, hrg.2, rfl⟩
  · exact Or.inl ⟨hin, by simp [TableBuffer.restorePrepared, hin]⟩

lemma Tracked.restorePrepared [BEq F] {t : TableBuffer F α} (h : Tracked t)
    (p : PreparedFlush F) : Tracked (t.restorePrepared p).2 ∧
      ((t.restorePrepared p).1 = .ok () → (t.restorePrepared p).2.preparedFlush = some p) := by
  rcases restorePrepared_cases t p with ⟨_, e, heq⟩ | ⟨hin, hhi, heq⟩ |
    ⟨hin, _, ⟨e, pending, hperm, heq⟩ | ⟨restored, remaining, _, _, hmin, hmax, heq⟩⟩
  · rw [heq]
    exact ⟨h, fun hok => by cases hok⟩
  · rw [heq]
    refine ⟨⟨fun q hq => ?_, h.pendingBytes, h.inFlightBytes⟩, fun _ => rfl⟩
    cases hq
    exact Or.inr ⟨hin, hhi⟩
  · rw [heq]
    exact ⟨⟨h.owns, rfl, h.inFlightBytes⟩, fun hok => by cases hok⟩
  · rw [heq]
    refine ⟨⟨fun q hq => ?_, rfl, rfl⟩, fun _ => rfl⟩
    cases hq
    exact Or.inl ⟨hmin, hmax⟩

/-- Restoring is exact unless rows of the range are already counted as committed. -/
theorem Tracked.restoresExactly_iff [BEq F] {t : TableBuffer F α} (h : Tracked t)
    (p : PreparedFlush F) : RestoresExactly t p ↔ ¬ Strands t p := by
  rcases restorePrepared_cases t p with ⟨hin, e, heq⟩ | ⟨hin, hhi, heq⟩ |
    ⟨hin, hhi, ⟨e, pending, hperm, heq⟩ | ⟨restored, remaining, hr, hm, _, _, heq⟩⟩
  · have hex : RestoresExactly t p := by
      rw [RestoresExactly, heq]
      exact Or.inr ⟨⟨e, rfl⟩, List.Perm.refl _, rfl⟩
    exact iff_of_true hex fun hs => hin hs.1
  · rw [RestoresExactly, heq]
    constructor
    · rintro (⟨_, hmoved, _⟩ | ⟨⟨e, he⟩, _⟩) ⟨_, _, en, hmem, hcon⟩
      · have hnil : t.state.pending.filter
            (fun en => p.generations.contains en.generation) = [] := hmoved.symm.trans hin
        exact List.filter_eq_nil_iff.mp hnil en hmem hcon
      · cases he
    · intro hs
      have hn : ∀ en ∈ t.state.pending,
          p.generations.contains en.generation = false := fun en hmem =>
        eq_false_of_ne_true fun hc => hs ⟨hin, hhi, en, hmem, hc⟩
      refine Or.inl ⟨rfl, ?_, ?_⟩
      · rw [List.filter_eq_nil_iff.mpr fun en hmem => by simp [hn en hmem]]
        exact hin
      · exact (List.filter_eq_self.mpr fun en hmem => by simp [hn en hmem]).symm
  · have hex : RestoresExactly t p := by
      rw [RestoresExactly, heq]
      exact Or.inr ⟨⟨e, rfl⟩, hperm, (entryBytes_perm hperm).trans h.pendingBytes.symm⟩
    exact iff_of_true hex fun hs => hhi hs.2.1
  · have hex : RestoresExactly t p := by
      rw [RestoresExactly, heq]
      exact Or.inl ⟨rfl, hr, hm⟩
    exact iff_of_true hex fun hs => hhi hs.2.1

/-- What is claimed of an action in the state before it. -/
def ActsSafely [BEq F] (t : TableBuffer F α) : Action F → Prop
  | .markCommitted genHi newMetadata pushedAt now =>
    ∃ t', t.markCommitted genHi newMetadata pushedAt now = .ok t'
  | .restorePrepared p => RestoresExactly t p ↔ ¬ Strands t p
  | _ => True

/-- The answers of the log are not ambiguous publications. -/
def Plain : (c : Call F α) → Answer c → Prop
  | .observeEpochAndBump _, a => ∀ error, a = .error error → ambiguity error = none
  | .removePrepared _, a => ∀ error, a = .error error → ambiguity error = none
  | _, _ => True

lemma plain_of_answer {rp : Reply F α} {c : Call F α} {a : Answer c}
    (h : rp.answer c = some a) : Plain c a := by
  cases c with
  | observeEpochAndBump ep =>
    cases rp with
    | epoch res =>
      intro e ha
      exact fromLog_error (ha ▸ h)
    | _ => cases h
  | removePrepared uuid =>
    cases rp with
    | log res =>
      intro e ha
      exact fromLog_error (ha ▸ h)
    | _ => cases h
  | _ => trivial

def ownership [BEq F] : Setting (io F α) (TableBuffer F α) where
  visible t event := Tracked t ∧
    match event with
    | .act name => ActsSafely t name
    | .call _ => True
  interferes := Beside
  answers t c a t' := t' = t ∧ Plain c a

/-- The phases of a flush, as far as ownership goes. -/
def ownershipPhases : Phases (TableBuffer F α) F α where
  idle := Tracked
  failed := Tracked
  unowned t := Tracked t ∧ t.state.flushState = .idle
  drained _ t := Tracked t ∧ t.state.flushState = .idle
  owned p t := Tracked t ∧ t.preparedFlush = some p
  ready p t := Tracked t ∧ t.preparedFlush = some p
  confirmed p _ t := Tracked t ∧ t.preparedFlush = some p
  published _ := Tracked
  rejected p t := Tracked t ∧ t.preparedFlush = some p
  removed p t := Tracked t ∧ t.preparedFlush = some p

lemma tracked_of_over {β : Type} {r : TeoDBResult β} {t : TableBuffer F α}
    (h : ownershipPhases.over r t) : Tracked t := by
  cases r with
  | ok b => exact h
  | error e => exact h.1

lemma tracked_stable [BEq F] : (ownership (F := F) (α := α)).Stable Tracked :=
  fun _ _ ht h => h.tracked ht

lemma unowned_stable [BEq F] : (ownership (F := F) (α := α)).Stable
    fun t => Tracked t ∧ t.state.flushState = .idle :=
  fun _ _ ht h => ⟨h.tracked ht.1, h.flushState.trans ht.2⟩

lemma owned_stable [BEq F] (p : PreparedFlush F) : (ownership (F := F) (α := α)).Stable
    fun t => Tracked t ∧ t.preparedFlush = some p :=
  fun _ _ ht h => ⟨h.tracked ht.1, h.preparedFlush.trans ht.2⟩

lemma ownershipPhases_rules [BEq F] (ident : TableIdent) :
    (ownershipPhases (F := F) (α := α)).Rules ownership (theBuffer ident) where
  idle_stable := tracked_stable
  failed_stable := tracked_stable
  unowned_stable := unowned_stable
  drained_stable _ := unowned_stable
  owned_stable := owned_stable
  ready_stable := owned_stable
  confirmed_stable p _ := owned_stable p
  published_stable _ := tracked_stable
  rejected_stable := owned_stable
  removed_stable := owned_stable
  reloaded_stable _ := tracked_stable
  idle_failed _ h := h
  drained_idle _ _ h := h.1
  ready_failed _ _ h := h.1
  confirmed_failed _ _ _ h := h.1
  rejected_failed _ _ h := h.1
  removed_failed _ _ h := h.1
  blocked t h :=
    ⟨⟨h, trivial⟩, fun b hb => ⟨h, TableBuffer.preparedFlush_of_blockedFlush hb⟩⟩
  prepared t h := ⟨⟨h, trivial⟩, fun p hp => ⟨h, hp⟩, fun hn =>
    ⟨h, TableBuffer.preparedFlush_eq_none_iff.mp hn⟩⟩
  drain t h := ⟨⟨h.1, trivial⟩, h.1.drainPendingToInFlight h.2,
    t.drainPendingToInFlight_flushState.trans h.2⟩
  build _ t c h _ := ⟨⟨h.1, trivial⟩, fun a t' ha => ha.1 ▸ h⟩
  metadata _ t h := ⟨h.1, trivial⟩
  rollback _ t h := by
    refine ⟨⟨h.1, trivial⟩, fun t' ht' => ?_⟩
    obtain ⟨hi, rfl⟩ := TableBuffer.rollbackUnpreparedFlush_eq_ok.mp ht'
    exact .of_idle hi h.1.mergeInFlightBackToPending.symm rfl
  install _ p t h := by
    refine ⟨⟨h.1, trivial⟩, fun t' ht' => ?_⟩
    obtain ⟨⟨hmin, hmax, _⟩, ⟨_, rfl⟩ | ⟨ho, _⟩⟩ := TableBuffer.setPrepared_ok ht'
    · refine ⟨⟨fun q hq => ?_, h.1.pendingBytes, h.1.inFlightBytes⟩, rfl⟩
      cases hq
      exact Or.inl ⟨hmin, hmax⟩
    · have hi : (TableBuffer.ownsState t.state.flushState p) = true := ho
      rw [h.2] at hi
      cases hi
  persist p t h := ⟨⟨h.1, trivial⟩, fun a t' ha => ha.1 ▸ ⟨h.1, fun _ => h⟩⟩
  commit p t h := by
    refine ⟨⟨h.1, trivial⟩, fun a t' ha => ?_⟩
    obtain ⟨rfl, _⟩ := ha
    cases a with
    | ok updated => exact h
    | error e =>
      simp only [Phases.answered]
      cases commitReaction e <;> exact h
  check p t h := by
    refine ⟨⟨h.1, trivial⟩, fun a t' ha => ?_⟩
    obtain ⟨rfl, _⟩ := ha
    cases a with
    | error e => exact h
    | ok status => cases status <;> exact h
  tick_ready p t c h _ := ⟨⟨h.1, trivial⟩, fun a t' ha => ha.1 ▸ h⟩
  tick_confirmed p _ t h := ⟨⟨h.1, trivial⟩, fun a t' ha => ha.1 ▸ h⟩
  complete p m pushedAt now t h := by
    refine ⟨⟨h.1, h.1.markCommitted_ok h.2 m pushedAt now⟩, fun t' ht' => ?_⟩
    obtain ⟨_, rfl⟩ := TableBuffer.markCommitted_eq_ok.mp ht'
    exact h.1.commitInFlight _ _ _ _
  advance p table t h := ⟨⟨h, trivial⟩, fun a t' ha => ha.1 ▸ h⟩
  cleanup p t h := ⟨⟨h, trivial⟩, fun a t' ha => ha.1 ▸ h⟩
  gc t h := ⟨⟨h, trivial⟩, fun a t' ha => ha.1 ▸ h⟩
  observeEpoch p epoch t h := ⟨⟨h.1, trivial⟩, fun a t' ha => ⟨ha.1 ▸ h, ha.2⟩⟩
  remove p t h := ⟨⟨h.1, trivial⟩, fun a t' ha => ⟨ha.1 ▸ h.1, fun _ => ha.1 ▸ h, ha.2⟩⟩
  fail p t h := by
    refine ⟨⟨h.1, trivial⟩, fun t' ht' => ?_⟩
    obtain ⟨_, rfl⟩ := TableBuffer.markFlushFailed_eq_ok.mp ht'
    exact .of_idle rfl h.1.mergeInFlightBackToPending.symm rfl
  block p err errorClass n now t h := by
    refine ⟨⟨h.1, trivial⟩, fun t' ht' => ?_⟩
    obtain ⟨_, sinceMs, rfl⟩ := TableBuffer.markFlushBlockedWithClass_ok ht'
    exact h.1.withFlushState h.2 rfl
  recheck p err n now t h := by
    refine ⟨⟨h.1, trivial⟩, ?_⟩
    show Tracked (t.markBlockedRecheck err n now)
    rcases TableBuffer.markBlockedRecheck_cases t err n now with
      heq | ⟨b, b', hb, hs, heq⟩
    · rw [heq]
      exact h.1
    · have hp : t.preparedFlush = some b.prepared := by simp [TableBuffer.preparedFlush, hb]
      rw [heq]
      exact h.1.withFlushState hp (congrArg some hs)
  reload t h := by
    refine ⟨⟨h, trivial⟩, fun a t' ha => ?_⟩
    obtain ⟨rfl, _⟩ := ha
    cases a <;> exact h
  refresh m t h := ⟨⟨h, trivial⟩, ⟨h.owns, h.pendingBytes, h.inFlightBytes⟩⟩

section

variable [BEq F] {cfg : ReplayConfig F} {ident : TableIdent} {p : PreparedFlush F}
  {t : TableBuffer F α}

lemma completePrepared_spec (m : TableMetadata) (h : Tracked t ∧ t.preparedFlush = some p) :
    wp ownership (fun _ => Tracked) (Replay.completePrepared (theBuffer ident) p m) t := by
  have rules := ownershipPhases_rules (F := F) (α := α) ident
  refine wp_mono (Q := ownershipPhases.over) (fun _ _ => tracked_of_over) ?_
  refine rules.markCommitted_bind_spec m h fun t ht => ?_
  refine wp_request_bind_of (rules.published_stable p) ht fun t ht => ?_
  refine ⟨(rules.advance p p.table t ht).1, fun a t' ha => ?_⟩
  refine wp_request_bind_of (rules.published_stable p) ((rules.advance p p.table t ht).2 a t' ha)
    fun t ht => ?_
  refine ⟨(rules.cleanup p t ht).1, fun a t' ha => ?_⟩
  obtain ⟨rfl, hpl⟩ := ha
  cases a with
  | ok u => exact ht
  | error e => exact ⟨ht, hpl e rfl⟩

lemma markFlushBlocked_spec (err errorClass : String) (n : Nat)
    (h : Tracked t ∧ t.preparedFlush = some p) : wp ownership (fun _ => Tracked)
      ((theBuffer ident).markFlushBlockedWithClass p err errorClass n) t :=
  wp_mono (Q := ownershipPhases.over) (fun _ _ => tracked_of_over)
    ((ownershipPhases_rules (F := F) (α := α) ident).markFlushBlockedWithClass_spec _ _ _ h)

lemma resolvePrepared_spec (h : Tracked t) :
    wp ownership (fun _ => Tracked) (Replay.resolvePrepared cfg (theBuffer ident) p) t := by
  have waits : ∀ (c : Call F α) (k : Answer c → Prog F α (TableBuffer F α) Unit) t,
      Tracked t ∧ t.preparedFlush = some p →
      (∀ a t, Tracked t ∧ t.preparedFlush = some p → wp ownership (fun _ => Tracked) (k a) t) →
      wp ownership (fun _ => Tracked) (call c >>= k) t := by
    intro c k t ht hk
    refine wp_request_bind_of (owned_stable p) ht fun t ht => ⟨⟨ht.1, trivial⟩, fun a t' ha => ?_⟩
    exact hk a t' (ha.1 ▸ ht)
  refine wp_read_bind_of tracked_stable h fun t ht => ⟨⟨ht, trivial⟩, ?_⟩
  refine wp_lift_bind (fun _ _ => ?_) fun _ _ => ht
  refine wp_bind_of (R := fun _ t => Tracked t ∧ t.preparedFlush = some p) (P := Tracked)
    ?_ fun _ t ht => ?_
  · refine wp_perform_of tracked_stable ht fun t ht => ?_
    refine ⟨⟨ht, ht.restoresExactly_iff p⟩, ?_⟩
    show ends _ _ (t.restorePrepared p).1 (t.restorePrepared p).2
    cases hr : (t.restorePrepared p).1 with
    | ok u => exact ⟨(ht.restorePrepared p).1, (ht.restorePrepared p).2 hr⟩
    | error e => exact (ht.restorePrepared p).1
  · refine waits _ _ t ht fun a t ht => ?_
    cases a with
    | error err => exact markFlushBlocked_spec _ _ _ ht
    | ok status =>
      cases status with
      | committed m => exact completePrepared_spec m ht
      | unknown msg => exact markFlushBlocked_spec _ _ _ ht
      | notCommitted =>
        refine waits _ _ t ht fun a t ht => ?_
        cases a with
        | ok m => exact completePrepared_spec m ht
        | error err =>
          cases hm : ambiguity err with
          | some msg =>
            simp only [hm]
            exact markFlushBlocked_spec _ _ _ ht
          | none =>
            simp only [hm]
            exact markFlushBlocked_spec _ _ _ ht

end

lemma flushPath_sound [BEq F] (cfg : ReplayConfig F) (ident : TableIdent) :
    (flushPath (α := α) cfg ident).Sound (fun _ _ => True) ownership Tracked where
  start := by
    rintro t ⟨md, cm, maxBytes, softWatermarkBytes, h, grace, rfl⟩
    exact .of_idle rfl rfl rfl
  refl := Beside.refl
  trans _ _ _ := Beside.trans
  stable := tracked_stable
  spawn task t ht := by
    have rules := ownershipPhases_rules (F := F) (α := α) ident
    cases task with
    | flushOnce => exact wp_ended_discard (rules.flushOnce_spec ht)
    | recheckBlocked => exact wp_ended_discard (rules.recheckBlocked_spec ht)
    | resolvePrepared p => exact resolvePrepared_spec ht
  interfere c ch t' _ h := by
    cases ch with
    | ingest op =>
      cases h
      exact Beside.apply _ op
    | _ => cases h
  answer t c k ch a t' _ h := by
    cases ch with
    | reply rp =>
      obtain ⟨b, hb, heq⟩ := Option.map_eq_some_iff.mp h
      cases heq
      exact ⟨rfl, plain_of_answer hb⟩
    | _ => cases h
  abandon t c k ch t' _ hvis h := by
    cases ch with
    | cancel =>
      rw [flushPath] at h
      dsimp only at h
      split_ifs at h
      cases h
      exact hvis.1
    | _ => cases h

/-- An installed intent owns exactly its range, a confirmed one is completed, and restoring is exact
unless rows of the range are pending below the high-water mark. -/
theorem flush_ownership [BEq F] (cfg : ReplayConfig F) (ident : TableIdent)
    {c : Host.Config (io F α) (TableBuffer F α) TeoDBError}
    (run : (flushPath cfg ident).machine.Reachable c) :
    OwnsRange c.state ∧
    (∀ genHi newMetadata pushedAt now g k,
      c.task = some (.act (.markCommitted genHi newMetadata pushedAt now) g k) →
      ∃ t', c.state.markCommitted genHi newMetadata pushedAt now = .ok t') ∧
    (∀ p g k, c.task = some (.act (.restorePrepared p) g k) →
      (RestoresExactly c.state p ↔ ¬ Strands c.state p)) := by
  have sound := flushPath_sound (α := α) cfg ident
  obtain ⟨t, task⟩ := c
  refine ⟨?_, ?_, ?_⟩
  · exact sound.always (V := OwnsRange) (fun t ht => ht.owns) (fun t event h => h.1.owns) run
  · rintro genHi newMetadata pushedAt now g k rfl
    exact (sound.visible_act run).2
  · rintro p g k rfl
    exact (sound.visible_act run).2

def plainOrder (β : Type) : HashOrder β := ⟨id, fun _ => List.Perm.refl _⟩

/-- Room for a hundred bytes, and data files that are never rejected. -/
def plainConfig : ReplayConfig Unit where
  numRetries := 1
  totalTimeout := 10
  minWait := 1
  maxWait := 4
  codec := PlainText.codec
  validatePreparedDataFiles _ _ := .ok ()
  numRetries_lt := by decide
  recoveryFlusher := true
  maxBytes := 100
  softWatermarkBytes := 80
  committedGrace := 0
  ttl := 60
  keyOrder := plainOrder _
  tableOrder := plainOrder _
  preparedOrder := plainOrder _
  maxBytes_le := hundred_le_u64Max

def eventsTable : TableIdent := ⟨"analytics", "events"⟩

def eventsUuid : Uuid := .ofNat 7

def eventsMetadata : TableMetadata := ⟨eventsUuid, none, 0, [], OrdMap.empty⟩

/-- An intent for one generation. -/
def eventsIntent (generation : Nat) : PreparedFlush Unit :=
  .new eventsTable eventsUuid ⟨.ofNat 1⟩ ⟨1⟩ ⟨.ofNat 2⟩ ⟨generation, generation⟩ 1 0 [()] none

def eventsBatch : RecordBatch Unit := ⟨[⟨(), 10⟩], 1, 16⟩

/-- A table whose checkpoint is generation one. -/
def committedBuffer : TableBuffer Unit Unit :=
  (TableBuffer.new eventsTable eventsMetadata 1 100 80 hundred_le_u64Max).withCommittedGrace 0

/-- Recovery inserts one record, and turns to the intent of its generation. -/
def restoring (generation : Nat) : List (Host.Turn (FlushTask Unit) (FlushChoice Unit Unit)) :=
  [ .interfere (.ingest (.insertWithGenerationAt (.ofNat 3) generation 0 eventsBatch)),
    .spawn (.resolvePrepared (eventsIntent generation)), .act ]

/-- The intent that a task is about to restore. -/
def restores {S : Type} (c : Host.Config (io F α) S TeoDBError) : Option (PreparedFlush F) :=
  match c.task with
  | some (.act (.restorePrepared p) _ _) => some p
  | _ => none

lemma task_of_restores {S : Type} {c : Host.Config (io F α) S TeoDBError}
    {p : PreparedFlush F} (h : restores c = some p) :
    ∃ g k, c.task = some (.act (.restorePrepared p) g k) := by
  unfold restores at h
  split at h
  · rename_i g k ht
    cases h
    exact ⟨g, k, ht⟩
  · cases h

/-- The flush path of the table `analytics.events`. -/
def eventsPath : Host (io Unit Unit) (TableBuffer Unit Unit) TeoDBError (FlushTask Unit)
    (FlushChoice Unit Unit) :=
  flushPath plainConfig eventsTable

/-- What is seen before an intent is restored: the ranges and the high-water mark. -/
def seenAtRestore (c : Host.Config (io Unit Unit) (TableBuffer Unit Unit) TeoDBError) :
    Option GenerationRange × List Nat × List Nat × Nat :=
  ((restores c).map fun p => p.generations, generations c.state.state.pending,
    generations c.state.state.inFlight, c.state.state.committedHighWater)

lemma exists_restoring (gen : Nat) (range : GenerationRange) (seen : List Nat × List Nat × Nat)
    (h : (eventsPath.machine.exec ⟨committedBuffer, none⟩ (restoring gen)).map
      seenAtRestore = some (some range, seen)) :
    ∃ c p g k, eventsPath.machine.Reachable c ∧ c.task = some (.act (.restorePrepared p) g k) ∧
      p.generations = range ∧ (generations c.state.state.pending,
        generations c.state.state.inFlight, c.state.state.committedHighWater) = seen := by
  have hst : eventsPath.machine.start ⟨committedBuffer, none⟩ := ⟨⟨_, _, _, _, _, _, rfl⟩, rfl⟩
  obtain ⟨c, hc, hs⟩ := Machine.exists_of_exec hst h
  obtain ⟨hp, hr⟩ := Prod.mk.inj hs
  obtain ⟨p, hp, hrg⟩ := Option.map_eq_some_iff.mp hp
  obtain ⟨g, k, ht⟩ := task_of_restores hp
  exact ⟨c, p, g, k, hc, ht, hrg, hr⟩

theorem flush_ownership_restore :
    ∃ c p g k, eventsPath.machine.Reachable c ∧ c.task = some (.act (.restorePrepared p) g k) ∧
      generations c.state.state.pending = [2] ∧ OwnsRange c.state ∧ RestoresExactly c.state p := by
  obtain ⟨c, p, g, k, hc, ht, hrg, hs⟩ := exists_restoring 2 ⟨2, 2⟩ ([2], [], 1) (by decide +kernel)
  obtain ⟨hpd, -, hh⟩ := by simpa using hs
  have hown := flush_ownership plainConfig eventsTable hc
  refine ⟨c, p, g, k, hc, ht, hpd, hown.1, (hown.2.2 p g k ht).mpr ?_⟩
  rintro ⟨_, hle, _⟩
  rw [hrg, hh] at hle
  exact absurd hle (by decide)

/-- A record below the opening of the buffer stays pending when the intent of its generation is
restored. -/
theorem restorePrepared_strands_rows :
    ∃ c p g k, eventsPath.machine.Reachable c ∧ c.task = some (.act (.restorePrepared p) g k) ∧
      ¬ RestoresExactly c.state p := by
  obtain ⟨c, p, g, k, hc, ht, hrg, hs⟩ := exists_restoring 1 ⟨1, 1⟩ ([1], [], 1) (by decide +kernel)
  obtain ⟨hpd, hin, hh⟩ := by simpa using hs
  have htra := (flushPath_sound plainConfig eventsTable).always (V := Tracked)
    (fun _ h => h) (fun _ _ h => h.1) hc
  refine ⟨c, p, g, k, hc, ht, fun hex => (htra.restoresExactly_iff p).mp hex ?_⟩
  obtain ⟨en, hen, hgen⟩ : ∃ en ∈ c.state.state.pending, en.generation = 1 := by
    have hmem : 1 ∈ generations c.state.state.pending := by simp [hpd]
    simpa [generations] using hmem
  refine ⟨by simpa [generations] using hin, by simp [hrg, hh], en, hen, ?_⟩
  simp [hrg, hgen]

end TeoDB.Ingest.Flush

import TeoDB.Ingest.Buffer.Table
import TeoDB.Lib.Machine

/-!
# The generation fence of the hot buffer

Draining stops at the lowest outstanding reservation, so no publication can move the committed
high-water mark past a batch whose log append is still running. `Fenced` states the resulting order
of generations and the byte accounting. Every operation keeps it, and the ledger of a run adds
where each inserted entry is.

## Implementation notes

A reservation cannot be copied or made up by a caller, so a run keeps the list of
outstanding reservations and an operation that consumes one takes it by position.
-/

namespace TeoDB.Ingest.Buffer

open TeoDB.Core Lib Lib.MachineInt Storage.Wal

variable {F α : Type}

/-- The exact number of bytes that entries were admitted with. -/
def totalBytes (entries : List (BufferEntry α)) : Nat :=
  (entries.map BufferEntry.byteSize).sum

@[simp] lemma totalBytes_append (a b : List (BufferEntry α)) :
    totalBytes (a ++ b) = totalBytes a + totalBytes b := by
  simp [totalBytes]

lemma totalBytes_perm {a b : List (BufferEntry α)} (h : a.Perm b) : totalBytes a = totalBytes b :=
  (h.map _).sum_eq

lemma entryBytes_of_le {es : List (BufferEntry α)} (h : totalBytes es ≤ u64Max) :
    entryBytes es = totalBytes es :=
  wrappingSum_of_le h

@[simp] lemma generations_append (a b : List (BufferEntry α)) :
    generations (a ++ b) = generations a ++ generations b := by
  simp [generations]

lemma mem_generations {es : List (BufferEntry α)} {g : Nat} :
    g ∈ generations es ↔ ∃ e ∈ es, e.generation = g := by
  simp [generations]

namespace TableBuffer

/-- All generations the buffer holds or has promised. -/
def liveGenerations (t : TableBuffer F α) : List Nat :=
  generations t.state.pending ++ generations t.state.inFlight ++ t.state.reservedGenerations.keys

/-- The order of generations and the byte accounting of a buffer. -/
structure Fenced (t : TableBuffer F α) : Prop where
  inFlight_lt_reserved :
    ∀ g ∈ generations t.state.inFlight, ∀ r ∈ t.state.reservedGenerations.keys, g < r
  inFlight_lt_pending :
    ∀ g ∈ generations t.state.inFlight, ∀ p ∈ generations t.state.pending, g < p
  nodup : t.liveGenerations.Nodup
  lt_nextGen : ∀ g ∈ t.liveGenerations, g < t.state.nextGen
  highWater_lt : ∀ g ∈ t.liveGenerations, t.state.committedHighWater < g
  nextGen_le : t.state.nextGen ≤ u64Max
  highWater_lt_nextGen : t.state.nextGen ≠ u64Max →
    t.state.committedHighWater < t.state.nextGen
  pendingBytes_eq : t.state.pendingBytes = totalBytes t.state.pending
  inFlightBytes_eq : t.state.inFlightBytes = totalBytes t.state.inFlight
  reservedBytes_eq : t.state.reservedBytes = t.state.reservedGenerations.values.sum
  bytes_le : t.state.pendingBytes + t.state.inFlightBytes + t.state.reservedBytes ≤ t.maxBytes

lemma new_fenced (ident : TableIdent) (md : TableMetadata) (cm : Nat)
    (maxBytes softWatermarkBytes grace : Nat) (h : maxBytes ≤ u64Max) (hc : cm ≤ u64Max) :
    Fenced ((new ident md cm maxBytes softWatermarkBytes h :
      TableBuffer F α).withCommittedGrace grace) := by
  have hem : ((new ident md cm maxBytes softWatermarkBytes h :
      TableBuffer F α).withCommittedGrace grace).liveGenerations = [] := rfl
  refine ⟨by simp [new, withCommittedGrace, generations],
    by simp [new, withCommittedGrace, generations], by simp [hem], by simp [hem],
    by simp [hem], min_le_right _ _, ?_, rfl, rfl, rfl, Nat.zero_le _⟩
  intro hne
  change cm < min (cm + 1) u64Max
  change min (cm + 1) u64Max ≠ u64Max at hne
  omega

variable {t : TableBuffer F α}

/-- The rules only depend on the generations held, up to order, and on the byte counts. -/
theorem Fenced.withFlushState (h : t.Fenced) (flushState : TableFlushState F) :
    (t.withFlushState flushState).Fenced :=
  ⟨h.inFlight_lt_reserved, h.inFlight_lt_pending, h.nodup, h.lt_nextGen, h.highWater_lt,
    h.nextGen_le, h.highWater_lt_nextGen, h.pendingBytes_eq, h.inFlightBytes_eq,
    h.reservedBytes_eq, h.bytes_le⟩

/-- An entry may join `pending` when its generation is new and above those in flight, and its bytes
fit. -/
theorem Fenced.admitEntry (h : t.Fenced) {e : BufferEntry α}
    (hnew : e.generation ∉ t.liveGenerations)
    (hfli : ∀ g ∈ generations t.state.inFlight, g < e.generation)
    (hwat : t.state.committedHighWater < e.generation) (hmax : e.generation < u64Max)
    (hfit : t.state.pendingBytes + t.state.inFlightBytes + t.state.reservedBytes + e.byteSize ≤
      t.maxBytes) : (t.admitEntry e).2.Fenced := by
  have hl : (t.admitEntry e).2.liveGenerations.Perm (e.generation :: t.liveGenerations) := by
    simp only [TableBuffer.admitEntry, liveGenerations, generations, List.map_append, List.map_cons,
      List.map_nil, List.append_assoc, List.singleton_append]
    exact List.perm_middle
  have hby : wrappingAdd t.state.pendingBytes e.byteSize = t.state.pendingBytes + e.byteSize :=
    wrappingAdd_of_le (by have := t.maxBytes_le; omega)
  refine ⟨h.inFlight_lt_reserved, ?_, ?_, ?_, ?_, ?_, ?_, ?_, h.inFlightBytes_eq,
    h.reservedBytes_eq, ?_⟩
  · intro g hg p hp
    simp only [TableBuffer.admitEntry, generations_append, List.mem_append] at hp
    rcases hp with hp | hp
    · exact h.inFlight_lt_pending g hg p hp
    · have hpe : e.generation = p := by simpa [generations, eq_comm] using hp
      exact hpe ▸ hfli g hg
  · exact hl.nodup_iff.mpr (List.nodup_cons.mpr ⟨hnew, h.nodup⟩)
  · intro g hg
    rcases List.mem_cons.mp (hl.mem_iff.mp hg) with rfl | hg
    · exact lt_max_of_lt_right (Nat.lt_succ_self _)
    · exact lt_max_of_lt_left (h.lt_nextGen g hg)
  · intro g hg
    rcases List.mem_cons.mp (hl.mem_iff.mp hg) with rfl | hg
    · exact hwat
    · exact h.highWater_lt g hg
  · exact max_le h.nextGen_le hmax
  · intro _
    exact lt_max_of_lt_right (Nat.lt_succ_of_lt hwat)
  · simp only [TableBuffer.admitEntry, hby, totalBytes_append]
    rw [h.pendingBytes_eq]
    simp [totalBytes]
  · simp only [TableBuffer.admitEntry, hby]
    omega

lemma Fenced.nextGen_notMem (h : t.Fenced) : t.state.nextGen ∉ t.liveGenerations :=
  fun hm => lt_irrefl _ (h.lt_nextGen _ hm)

lemma inFlight_subset_live (t : TableBuffer F α) :
    ∀ g ∈ generations t.state.inFlight, g ∈ t.liveGenerations := by
  intro g hg
  simp [liveGenerations, hg]

lemma reserved_subset_live (t : TableBuffer F α) :
    ∀ g ∈ t.state.reservedGenerations.keys, g ∈ t.liveGenerations := by
  intro g hg
  simp only [liveGenerations, List.mem_append]
  exact Or.inr hg

variable {bt : RecordBatch α}

lemma Fenced.insert (h : t.Fenced) {batchId : Uuid} {created : Int}
    {r : InsertOk × TableBuffer F α} (hr : t.insert batchId bt created = .ok r) : r.2.Fenced := by
  obtain ⟨had, rfl⟩ := insert_eq_ok.mp hr
  exact h.admitEntry h.nextGen_notMem (fun g hg => h.lt_nextGen g (t.inFlight_subset_live g hg))
    (h.highWater_lt_nextGen had.below) (lt_of_le_of_ne h.nextGen_le had.below) had.fits

variable {sz : Nat}

lemma Fenced.addReservation (h : t.Fenced) (had : t.Admissible t.state.nextGen sz) :
    (t.addReservation sz).Fenced := by
  have hfr : t.state.reservedGenerations.find? t.state.nextGen = none := by
    rw [OrdMap.find?_eq_none_iff]
    exact fun hm => h.nextGen_notMem (t.reserved_subset_live _ hm)
  have hk := t.state.reservedGenerations.keys_insert_perm sz hfr
  have hl : (t.addReservation sz).liveGenerations.Perm (t.state.nextGen :: t.liveGenerations) :=
    (hk.append_left _).trans List.perm_middle
  have hby : wrappingAdd t.state.reservedBytes sz = t.state.reservedBytes + sz :=
    wrappingAdd_of_le (by have := t.maxBytes_le; have := had.fits; omega)
  refine ⟨?_, h.inFlight_lt_pending, ?_, ?_, ?_, ?_, ?_, h.pendingBytes_eq, h.inFlightBytes_eq,
    ?_, ?_⟩
  · intro g hg r hr
    rcases List.mem_cons.mp (hk.mem_iff.mp hr) with rfl | hr
    · exact h.lt_nextGen g (t.inFlight_subset_live g hg)
    · exact h.inFlight_lt_reserved g hg r hr
  · exact hl.nodup_iff.mpr (List.nodup_cons.mpr ⟨h.nextGen_notMem, h.nodup⟩)
  · intro g hg
    rcases List.mem_cons.mp (hl.mem_iff.mp hg) with rfl | hg
    · exact Nat.lt_succ_self _
    · exact Nat.lt_succ_of_lt (h.lt_nextGen g hg)
  · intro g hg
    rcases List.mem_cons.mp (hl.mem_iff.mp hg) with rfl | hg
    · exact h.highWater_lt_nextGen had.below
    · exact h.highWater_lt g hg
  · exact lt_of_le_of_ne h.nextGen_le had.below
  · intro _
    exact Nat.lt_succ_of_lt (h.highWater_lt_nextGen had.below)
  · have hsum : ((t.addReservation sz).state.reservedGenerations.values).sum =
        sz + t.state.reservedGenerations.values.sum := by
      simpa [TableBuffer.addReservation] using
        (t.state.reservedGenerations.values_insert_perm sz hfr).sum_eq
    rw [hsum, ← h.reservedBytes_eq]
    simp only [TableBuffer.addReservation, hby]
    omega
  · have := had.fits
    simp only [TableBuffer.addReservation, hby]
    omega

lemma Fenced.reserve (h : t.Fenced) {r : Reservation × TableBuffer F α}
    (hr : t.reserve bt = .ok r) : r.2.Fenced := by
  obtain ⟨_, had, rfl⟩ := reserve_eq_ok.mp hr
  exact h.addReservation had

variable {r : Reservation}

/-- The books of a buffer after one of its reservations is forgotten. -/
theorem forgetReservation_live (hr : t.state.reservedGenerations.find? r.generation = some sz) :
    t.liveGenerations.Perm (r.generation :: (t.forgetReservation r).liveGenerations) := by
  rw [forgetReservation_of_find hr]
  exact ((t.state.reservedGenerations.keys_erase_perm hr).append_left _).trans List.perm_middle

lemma forgetReservation_bytes (h : t.Fenced)
    (hr : t.state.reservedGenerations.find? r.generation = some sz) :
    t.state.reservedBytes = sz + (t.forgetReservation r).state.reservedBytes := by
  have hsum : t.state.reservedGenerations.values.sum =
      sz + (t.state.reservedGenerations.erase r.generation).values.sum := by
    simpa using (t.state.reservedGenerations.values_erase_perm hr).sum_eq
  rw [forgetReservation_of_find hr]
  have := h.reservedBytes_eq
  simp only
  omega

lemma Fenced.forgetReservation (h : t.Fenced)
    (hr : t.state.reservedGenerations.find? r.generation = some sz) :
    (t.forgetReservation r).Fenced := by
  have hl := forgetReservation_live hr
  have hbytes := forgetReservation_bytes h hr
  have hsub : ∀ g ∈ (t.forgetReservation r).liveGenerations, g ∈ t.liveGenerations :=
    fun g hg => hl.mem_iff.mpr (List.mem_cons_of_mem _ hg)
  have hsum : t.state.reservedGenerations.values.sum =
      sz + (t.state.reservedGenerations.erase r.generation).values.sum := by
    simpa using (t.state.reservedGenerations.values_erase_perm hr).sum_eq
  have hnd := (List.nodup_cons.mp (hl.nodup_iff.mp h.nodup)).2
  have hrsv := h.reservedBytes_eq
  have hle := h.bytes_le
  rw [forgetReservation_of_find hr] at *
  refine ⟨?_, h.inFlight_lt_pending, hnd, fun g hg => h.lt_nextGen g (hsub g hg),
    fun g hg => h.highWater_lt g (hsub g hg), h.nextGen_le, h.highWater_lt_nextGen,
    h.pendingBytes_eq, h.inFlightBytes_eq, ?_, ?_⟩
  · intro g hg k hk
    obtain ⟨v, hv⟩ := (OrdMap.mem_keys _ _).mp hk
    exact h.inFlight_lt_reserved g hg k
      ((OrdMap.mem_keys _ _).mpr ⟨v, ((OrdMap.mem_entries_erase _ _ _).mp hv).2⟩)
  · simp only
    omega
  · simp only
    omega

/-- A reserved batch of the reserved size is admitted without any check. -/
theorem Fenced.insertReservedAt (h : t.Fenced) (batchId : Uuid) (created : Int)
    (hr : t.state.reservedGenerations.find? r.generation = some (batchByteSize bt)) :
    (t.insertReservedAt batchId r created bt).2.Fenced := by
  have hl := forgetReservation_live hr
  have hbytes := forgetReservation_bytes h hr
  have hmem : r.generation ∈ t.liveGenerations := hl.mem_iff.mpr (by simp)
  have hkey : r.generation ∈ t.state.reservedGenerations.keys :=
    (OrdMap.mem_keys _ _).mpr ⟨_, (OrdMap.find?_eq_some_iff _ _ _).mp hr⟩
  refine (h.forgetReservation hr).admitEntry
    (List.nodup_cons.mp (hl.nodup_iff.mp h.nodup)).1 ?_ ?_ ?_ ?_
  · rw [forgetReservation_of_find hr]
    exact fun g hg => h.inFlight_lt_reserved g hg _ hkey
  · rw [forgetReservation_of_find hr]
    exact h.highWater_lt _ hmem
  · exact lt_of_lt_of_le (h.lt_nextGen _ hmem) h.nextGen_le
  · have := h.bytes_le
    rw [forgetReservation_of_find hr] at *
    simp only at *
    omega

lemma drainable_append_heldBack (t : TableBuffer F α) :
    (t.drainable ++ t.heldBack).Perm t.state.pending :=
  List.filter_append_perm _ _

lemma drainable_lt_reserved :
    ∀ g ∈ generations t.drainable, ∀ r ∈ t.state.reservedGenerations.keys, g < r := by
  intro g hg r hr
  obtain ⟨e, he, rfl⟩ := mem_generations.mp hg
  have hmay := (List.mem_filter.mp he).2
  cases hmin : t.state.reservedGenerations.minKey? with
  | none =>
    have hnil := (OrdMap.minKey?_eq_none_iff _).mp hmin
    simp [OrdMap.keys, hnil] at hr
  | some lowest =>
    have hlt : e.generation < lowest := by simpa [mayDrain, hmin] using hmay
    exact hlt.trans_le ((OrdMap.minKey?_le _ hmin).2 r hr)

lemma drainable_lt_heldBack :
    ∀ g ∈ generations t.drainable, ∀ p ∈ generations t.heldBack, g < p := by
  intro g hg p hp
  obtain ⟨e, he, rfl⟩ := mem_generations.mp hg
  obtain ⟨d, hd, rfl⟩ := mem_generations.mp hp
  have hmay := (List.mem_filter.mp he).2
  have hm := (List.mem_filter.mp hd).2
  cases hmin : t.state.reservedGenerations.minKey? with
  | none => simp [mayDrain, hmin] at hm
  | some lowest =>
    simp only [mayDrain, hmin, decide_eq_true_eq, Bool.not_eq_true', decide_eq_false_iff_not,
      not_lt] at hmay hm
    exact hmay.trans_le hm

/-- A drain only moves entries of an idle buffer, and it moves exactly those
below every reserved generation. -/
theorem Fenced.drain_cases (h : t.Fenced) :
    (t.state.inFlight ≠ [] ∧ t.drainPendingToInFlight = (t.state.inFlight, t)) ∨
    (t.state.inFlight = [] ∧ t.drainPendingToInFlight = (t.drainable,
          { t with
            state :=
              { t.state with
                pending := t.heldBack
                inFlight := t.drainable
                inFlightBytes := totalBytes t.drainable
                pendingBytes := totalBytes t.heldBack } })) := by
  by_cases hi : t.state.inFlight = []
  · have hle := h.bytes_le
    have hmax := t.maxBytes_le
    have hpd := h.pendingBytes_eq
    have hsp := totalBytes_perm t.drainable_append_heldBack
    rw [totalBytes_append] at hsp
    have hall : entryBytes t.state.pending = totalBytes t.state.pending :=
      entryBytes_of_le (by omega)
    have hdrain : entryBytes t.drainable = totalBytes t.drainable := entryBytes_of_le (by omega)
    have hb : entryBytes t.heldBack = totalBytes t.heldBack := entryBytes_of_le (by omega)
    have hfli : t.state.inFlightBytes = 0 := by
      rw [h.inFlightBytes_eq, hi]
      rfl
    refine Or.inr ⟨hi, ?_⟩
    rw [drainPendingToInFlight_of_idle hi (by rw [hall, hpd]) hfli, hdrain, hb]
  · exact Or.inl ⟨hi, drainPendingToInFlight_of_inFlight hi⟩

lemma Fenced.drainPendingToInFlight (h : t.Fenced) : t.drainPendingToInFlight.2.Fenced := by
  rcases h.drain_cases with ⟨_, heq⟩ | ⟨hi, heq⟩
  · rw [heq]
    exact h
  · rw [heq]
    have hsp := totalBytes_perm t.drainable_append_heldBack
    rw [totalBytes_append] at hsp
    have hl : (generations t.heldBack ++ generations t.drainable ++
        t.state.reservedGenerations.keys).Perm t.liveGenerations := by
      have hp : (generations t.heldBack ++ generations t.drainable).Perm
          (generations t.state.pending) :=
        List.perm_append_comm.trans
          (by simpa [generations] using t.drainable_append_heldBack.map BufferEntry.generation)
      simpa [liveGenerations, hi, generations] using
        hp.append_right t.state.reservedGenerations.keys
    have hflight : t.state.inFlightBytes = 0 := by
      rw [h.inFlightBytes_eq, hi]
      rfl
    refine ⟨drainable_lt_reserved, drainable_lt_heldBack, hl.nodup_iff.mpr h.nodup,
      fun g hg => h.lt_nextGen g (hl.mem_iff.mp hg),
      fun g hg => h.highWater_lt g (hl.mem_iff.mp hg), h.nextGen_le, h.highWater_lt_nextGen,
      rfl, rfl, h.reservedBytes_eq, ?_⟩
    have hle := h.bytes_le
    have hpd := h.pendingBytes_eq
    simp only
    omega

/-- With no reservation outstanding a drain of an idle buffer takes everything. -/
theorem drainable_of_no_reservation (h : t.state.reservedGenerations.entries = []) :
    t.drainable = t.state.pending := by
  have hmin := (OrdMap.minKey?_eq_none_iff _).mpr h
  simp [drainable, hmin, mayDrain]

/-- The generation a commit may report: the highest in flight, or one committed when nothing is in
flight. -/
theorem inFlight_le_commit {genHi : Nat} (hhi : (generations t.state.inFlight).max? =
      some genHi ∨ (t.state.inFlight = [] ∧ genHi ≤ t.state.committedHighWater)) :
    ∀ g ∈ generations t.state.inFlight, g ≤ genHi := by
  rcases hhi with hhi | ⟨hnil, _⟩
  · exact fun g hg => (List.max?_eq_some_iff.mp hhi).2 g hg
  · simp [hnil, generations]

lemma Fenced.commitInFlight (h : t.Fenced) {genHi : Nat} {md' : TableMetadata}
    {pushedAt now : Nat} (hhi : (generations t.state.inFlight).max? =
      some genHi ∨ (t.state.inFlight = [] ∧ genHi ≤ t.state.committedHighWater)) :
    (t.commitInFlight genHi md' pushedAt now).Fenced := by
  have hk : ∀ g ∈ generations t.state.pending ++ t.state.reservedGenerations.keys,
      g ∈ t.liveGenerations ∧ max t.state.committedHighWater genHi < g := by
    intro g hg
    have hl : g ∈ t.liveGenerations := by
      simp only [liveGenerations, List.mem_append] at hg ⊢
      tauto
    refine ⟨hl, max_lt (h.highWater_lt g hl) ?_⟩
    rcases hhi with hhi | ⟨_, hle⟩
    · have hmem := (List.max?_eq_some_iff.mp hhi).1
      rcases List.mem_append.mp hg with hg | hg
      · exact h.inFlight_lt_pending _ hmem g hg
      · exact h.inFlight_lt_reserved _ hmem g hg
    · exact hle.trans_lt (h.highWater_lt g hl)
  have hl : (t.commitInFlight genHi md' pushedAt now).liveGenerations =
      generations t.state.pending ++ t.state.reservedGenerations.keys := by
    simp [liveGenerations, TableBuffer.commitInFlight, generations]
  have hwater : t.state.nextGen ≠ u64Max →
      max t.state.committedHighWater genHi < t.state.nextGen := by
    intro hne
    refine max_lt (h.highWater_lt_nextGen hne) ?_
    rcases hhi with hhi | ⟨_, hle⟩
    · exact h.lt_nextGen _ (t.inFlight_subset_live _ (List.max?_eq_some_iff.mp hhi).1)
    · exact hle.trans_lt (h.highWater_lt_nextGen hne)
  refine ⟨by simp [TableBuffer.commitInFlight, generations],
    by simp [TableBuffer.commitInFlight, generations], ?_, ?_, ?_, h.nextGen_le, hwater,
    h.pendingBytes_eq, rfl, h.reservedBytes_eq, ?_⟩
  · rw [hl]
    refine h.nodup.sublist ?_
    simp [liveGenerations]
  · exact fun g hg => h.lt_nextGen g (hk g (hl ▸ hg)).1
  · exact fun g hg => (hk g (hl ▸ hg)).2
  · have hle := h.bytes_le
    simp only [TableBuffer.commitInFlight]
    omega

lemma Fenced.mergeInFlightBackToPending (h : t.Fenced) :
    Fenced { t with state := TableBuffer.mergeInFlightBackToPending t.state } := by
  have hle := h.bytes_le
  have hmax := t.maxBytes_le
  have hby : wrappingAdd t.state.pendingBytes t.state.inFlightBytes =
      t.state.pendingBytes + t.state.inFlightBytes := wrappingAdd_of_le (by omega)
  have hl : (generations (t.state.inFlight ++ t.state.pending) ++
      generations ([] : List (BufferEntry α)) ++
      t.state.reservedGenerations.keys).Perm t.liveGenerations := by
    rw [generations_append]
    simp only [generations, List.map_nil, List.append_nil, liveGenerations]
    exact List.perm_append_comm.append_right _
  refine ⟨by simp [TableBuffer.mergeInFlightBackToPending, generations],
    by simp [TableBuffer.mergeInFlightBackToPending, generations], hl.nodup_iff.mpr h.nodup,
    fun g hg => h.lt_nextGen g (hl.mem_iff.mp hg),
    fun g hg => h.highWater_lt g (hl.mem_iff.mp hg), h.nextGen_le, h.highWater_lt_nextGen,
    ?_, rfl, h.reservedBytes_eq, ?_⟩
  · simp only [TableBuffer.mergeInFlightBackToPending, hby, totalBytes_append]
    rw [h.pendingBytes_eq, h.inFlightBytes_eq, Nat.add_comm]
  · simp only [TableBuffer.mergeInFlightBackToPending, hby]
    omega

end TableBuffer

/-- One call of the flush state machine on the buffer. -/
inductive FlushOp (F : Type) where
  | drainPendingToInFlight
  | setPrepared (prepared : PreparedFlush F)
  | markCommitted (genHi : Nat) (newMetadata : TableMetadata) (pushedAt now : Nat)
  | rollbackUnpreparedFlush
  | markFlushFailed (prepared : PreparedFlush F)
  | markFlushBlocked (prepared : PreparedFlush F) (lastError : String) (attempts : Nat)
      (now : Int)

/-- The buffer after a flush call, and the entries that the call committed. A
failed call changes nothing. -/
def TableBuffer.applyFlush [BEq F] (t : TableBuffer F α) :
    FlushOp F → TableBuffer F α × List (BufferEntry α)
  | .drainPendingToInFlight => (t.drainPendingToInFlight.2, [])
  | .setPrepared prepared => ((t.setPrepared prepared).toOption.getD t, [])
  | .markCommitted genHi newMetadata pushedAt now =>
    match t.markCommitted genHi newMetadata pushedAt now with
    | .ok t' => (t', t.state.inFlight)
    | .error _ => (t, [])
  | .rollbackUnpreparedFlush => (t.rollbackUnpreparedFlush.toOption.getD t, [])
  | .markFlushFailed prepared => ((t.markFlushFailed prepared).toOption.getD t, [])
  | .markFlushBlocked prepared lastError attempts now =>
    ((t.markFlushBlocked prepared lastError attempts now).toOption.getD t, [])

/-- A buffer with the reservations its callers hold and the history of its
entries. -/
structure FenceRun (F α : Type) where
  buffer : TableBuffer F α
  held : List (Reservation × RecordBatch α)
  inserted : List (BufferEntry α)
  committed : List (BufferEntry α)

/-- One call on the buffer. A reservation is named by its position among those held. -/
inductive FenceOp (F α : Type) where
  | reserve (batch : RecordBatch α)
  | releaseReservation (index : Nat)
  | insertReservedAt (index : Nat) (batchId : Uuid) (createdAtMs : Int)
  | insert (batchId : Uuid) (batch : RecordBatch α) (createdAtMs : Int)
  | flush (op : FlushOp F)

namespace FenceRun

section

variable [BEq F]

def next (s : FenceRun F α) : FenceOp F α → Option (FenceRun F α)
  | .reserve batch =>
    match s.buffer.reserve batch with
    | .ok (reservation, buffer) =>
      some { s with buffer := buffer, held := (reservation, batch) :: s.held }
    | .error _ => some s
  | .releaseReservation index =>
    s.held[index]?.map fun (reservation, _) =>
      { s with
        buffer := s.buffer.releaseReservation reservation
        held := s.held.eraseIdx index }
  | .insertReservedAt index batchId createdAtMs =>
    s.held[index]?.map fun (reservation, batch) =>
      { s with
        buffer := (s.buffer.insertReservedAt batchId reservation createdAtMs batch).2
        held := s.held.eraseIdx index
        inserted := s.inserted ++
          [⟨batchId, reservation.generation, createdAtMs, batch, batchByteSize batch⟩] }
  | .insert batchId batch createdAtMs =>
    match s.buffer.insert batchId batch createdAtMs with
    | .ok (inserted, buffer) =>
      some
        { s with
          buffer := buffer
          inserted := s.inserted ++
            [⟨batchId, inserted.generation, createdAtMs, batch, batchByteSize batch⟩] }
    | .error _ => some s
  | .flush op =>
    let (buffer, committed) := s.buffer.applyFlush op
    some { s with buffer := buffer, committed := s.committed ++ committed }

/-- Runs of calls on a buffer that starts empty above any committed generation. -/
def machine (F α : Type) [BEq F] : Machine (FenceRun F α) (FenceOp F α) where
  start s := ∃ ident metadata committed maxBytes softWatermarkBytes grace,
    ∃ h : maxBytes ≤ u64Max, committed ≤ u64Max ∧
      s = ⟨(TableBuffer.new ident metadata committed maxBytes softWatermarkBytes
        h).withCommittedGrace grace, [], [], []⟩
  next := next

end

/-- What a run of calls maintains. -/
structure Ledger (s : FenceRun F α) : Prop where
  fenced : s.buffer.Fenced
  held_perm : (s.held.map fun h => (h.1.generation, h.1.byteSize)).Perm
    s.buffer.state.reservedGenerations.entries
  held_size : ∀ h ∈ s.held, h.1.byteSize = batchByteSize h.2
  inserted_perm : s.inserted.Perm
    (s.committed ++ s.buffer.state.inFlight ++ s.buffer.state.pending)
  committed_le : ∀ g ∈ generations s.committed, g ≤ s.buffer.state.committedHighWater
  committed_nodup : (generations s.committed).Nodup

variable {s : FenceRun F α} {buf : TableBuffer F α}

/-- A call that keeps reservations and high-water mark, and the entries up to
their place, keeps the ledger. -/
theorem Ledger.of_rearranged (h : s.Ledger) (hf : buf.Fenced)
    (hrsv : buf.state.reservedGenerations = s.buffer.state.reservedGenerations)
    (hwater : buf.state.committedHighWater = s.buffer.state.committedHighWater)
    (hens : (buf.state.inFlight ++ buf.state.pending).Perm
      (s.buffer.state.inFlight ++ s.buffer.state.pending)) :
    Ledger { s with buffer := buf } := by
  refine ⟨hf, ?_, h.held_size, ?_, ?_, h.committed_nodup⟩
  · rw [hrsv]
    exact h.held_perm
  · have hp := (hens.symm.append_left s.committed)
    rw [← List.append_assoc, ← List.append_assoc] at hp
    exact h.inserted_perm.trans hp
  · rw [hwater]
    exact h.committed_le

/-- The order of the held reservations does not matter. -/
theorem Ledger.of_held_perm (h : s.Ledger) {held : List (Reservation × RecordBatch α)}
    (hp : held.Perm s.held) : Ledger { s with held := held } :=
  ⟨h.fenced, (hp.map _).trans h.held_perm, fun x hx => h.held_size x (hp.mem_iff.mp hx),
    h.inserted_perm, h.committed_le, h.committed_nodup⟩

variable {r : Reservation} {bt : RecordBatch α} {rest : List (Reservation × RecordBatch α)}

/-- A held reservation is on the books with the size of its batch. -/
theorem Ledger.find_held (h : s.Ledger) (hr : s.held.Perm ((r, bt) :: rest)) :
    s.buffer.state.reservedGenerations.find? r.generation = some (batchByteSize bt) := by
  have hmem : (r, bt) ∈ s.held := hr.mem_iff.mpr List.mem_cons_self
  rw [OrdMap.find?_eq_some_iff, ← h.held_size _ hmem]
  apply h.held_perm.mem_iff.mp
  exact List.mem_map_of_mem (f := fun h => (h.1.generation, h.1.byteSize)) hmem

/-- Consuming a held reservation removes exactly its entry from the books. -/
theorem Ledger.consume (h : s.Ledger) (hr : s.held.Perm ((r, bt) :: rest)) :
    (rest.map fun h => (h.1.generation, h.1.byteSize)).Perm
      (s.buffer.state.reservedGenerations.erase r.generation).entries := by
  have hs : r.byteSize = batchByteSize bt :=
    h.held_size _ (hr.mem_iff.mpr List.mem_cons_self)
  have hhd := hr.symm.map fun h : Reservation × RecordBatch α => (h.1.generation, h.1.byteSize)
  rw [List.map_cons] at hhd
  have hboo := s.buffer.state.reservedGenerations.erase_perm (h.find_held hr)
  rw [← hs] at hboo
  exact (hhd.trans (h.held_perm.trans hboo)).cons_inv

lemma perm_of_getElem? {β : Type*} {l : List β} {i : Nat} {b : β}
    (h : l[i]? = some b) : l.Perm (b :: l.eraseIdx i) := by
  obtain ⟨hlt, rfl⟩ := List.getElem?_eq_some_iff.mp h
  exact (List.getElem_cons_eraseIdx_perm hlt).symm

lemma Ledger.start (ident : TableIdent) (md : TableMetadata) {cm : Nat}
    {maxBytes : Nat} (softWatermarkBytes grace : Nat) (h : maxBytes ≤ u64Max) (hc : cm ≤ u64Max) :
    Ledger (⟨(TableBuffer.new ident md cm maxBytes softWatermarkBytes
      h).withCommittedGrace grace, [], [], []⟩ : FenceRun F α) :=
  ⟨TableBuffer.new_fenced _ _ _ _ _ _ h hc, List.Perm.nil, by simp, List.Perm.nil,
    by simp [generations], by simp [generations]⟩

lemma Ledger.reserve (h : s.Ledger) (hr : s.buffer.reserve bt = .ok (r, buf)) :
    Ledger { s with buffer := buf, held := (r, bt) :: s.held } := by
  have hf := h.fenced.reserve hr
  obtain ⟨_, _, heq⟩ := TableBuffer.reserve_eq_ok.mp hr
  obtain ⟨rfl, rfl⟩ := Prod.ext_iff.mp heq
  have hfr : s.buffer.state.reservedGenerations.find? s.buffer.state.nextGen = none := by
    rw [OrdMap.find?_eq_none_iff]
    exact fun hm => h.fenced.nextGen_notMem (s.buffer.reserved_subset_live _ hm)
  refine ⟨hf, ?_, ?_, h.inserted_perm, h.committed_le, h.committed_nodup⟩
  · exact (h.held_perm.cons _).trans (OrdMap.insert_perm _ _ hfr).symm
  · intro x hx
    rcases List.mem_cons.mp hx with rfl | hx
    · rfl
    · exact h.held_size x hx

lemma Ledger.releaseReservation (h : s.Ledger) (hr : s.held.Perm ((r, bt) :: rest)) :
    Ledger { s with buffer := s.buffer.releaseReservation r, held := rest } := by
  have hfi := h.find_held hr
  have hf := h.fenced.forgetReservation hfi
  have hbooks := h.consume hr
  simp only [TableBuffer.releaseReservation]
  rw [TableBuffer.forgetReservation_of_find hfi] at hf ⊢
  exact ⟨hf, hbooks, fun x hx => h.held_size x (hr.mem_iff.mpr (List.mem_cons_of_mem _ hx)),
    h.inserted_perm, h.committed_le, h.committed_nodup⟩

lemma Ledger.insertReservedAt (h : s.Ledger) (batchId : Uuid) (created : Int)
    (hr : s.held.Perm ((r, bt) :: rest)) :
    Ledger { s with
      buffer := (s.buffer.insertReservedAt batchId r created bt).2
      held := rest
      inserted := s.inserted ++ [⟨batchId, r.generation, created, bt, batchByteSize bt⟩] } := by
  have hfi := h.find_held hr
  have hf := h.fenced.insertReservedAt batchId created hfi
  have hbooks := h.consume hr
  simp only [TableBuffer.insertReservedAt] at hf ⊢
  rw [TableBuffer.forgetReservation_of_find hfi] at hf ⊢
  refine ⟨hf, hbooks, fun x hx => h.held_size x (hr.mem_iff.mpr (List.mem_cons_of_mem _ hx)), ?_,
    h.committed_le, h.committed_nodup⟩
  have hp := h.inserted_perm.append_right
    [(⟨batchId, r.generation, created, bt, batchByteSize bt⟩ : BufferEntry α)]
  rwa [List.append_assoc] at hp

lemma Ledger.insert (h : s.Ledger) {batchId : Uuid} {created : Int} {r : InsertOk}
    (hr : s.buffer.insert batchId bt created = .ok (r, buf)) :
    Ledger { s with
      buffer := buf
      inserted := s.inserted ++ [⟨batchId, r.generation, created, bt, batchByteSize bt⟩] } := by
  have hf := h.fenced.insert hr
  obtain ⟨_, heq⟩ := TableBuffer.insert_eq_ok.mp hr
  obtain ⟨rfl, rfl⟩ := Prod.ext_iff.mp heq
  refine ⟨hf, h.held_perm, h.held_size, ?_, h.committed_le, h.committed_nodup⟩
  have hp := h.inserted_perm.append_right
    [(⟨batchId, s.buffer.state.nextGen, created, bt, batchByteSize bt⟩ : BufferEntry α)]
  rwa [List.append_assoc] at hp

lemma Ledger.markCommitted (h : s.Ledger) {genHi : Nat} {md' : TableMetadata}
    {pushedAt now : Nat} (hr : s.buffer.markCommitted genHi md' pushedAt now = .ok buf) :
    Ledger { s with
      buffer := buf
      committed := s.committed ++ s.buffer.state.inFlight } := by
  obtain ⟨hhi, rfl⟩ := TableBuffer.markCommitted_eq_ok.mp hr
  refine ⟨h.fenced.commitInFlight hhi, h.held_perm, h.held_size, ?_, ?_, ?_⟩
  · simpa [TableBuffer.commitInFlight] using h.inserted_perm
  · intro g hg
    rcases List.mem_append.mp (by simpa using hg) with hg | hg
    · exact le_max_of_le_left (h.committed_le g hg)
    · exact le_max_of_le_right (TableBuffer.inFlight_le_commit hhi g hg)
  · rw [generations_append]
    refine h.committed_nodup.append ?_ ?_
    · exact (List.nodup_append.mp (List.nodup_append.mp h.fenced.nodup).1).2.1
    · intro g hc hg
      exact absurd (h.committed_le g hc) (not_le.mpr (h.fenced.highWater_lt g
        (s.buffer.inFlight_subset_live g hg)))

/-- A drain moves entries from pending to in-flight and loses none. -/
theorem drain_entries_perm {t : TableBuffer F α} (h : t.Fenced) :
    (t.drainPendingToInFlight.2.state.inFlight ++ t.drainPendingToInFlight.2.state.pending).Perm
      (t.state.inFlight ++ t.state.pending) := by
  rcases h.drain_cases with ⟨_, heq⟩ | ⟨hi, heq⟩
  · rw [heq]
  · rw [heq, hi]
    exact t.drainable_append_heldBack

lemma drain_reservedGenerations (t : TableBuffer F α) :
    t.drainPendingToInFlight.2.state.reservedGenerations = t.state.reservedGenerations := by
  unfold TableBuffer.drainPendingToInFlight
  dsimp only
  split_ifs <;> rfl

lemma drain_committedHighWater (t : TableBuffer F α) :
    t.drainPendingToInFlight.2.state.committedHighWater = t.state.committedHighWater := by
  unfold TableBuffer.drainPendingToInFlight
  dsimp only
  split_ifs <;> rfl

/-- Every generation is inserted at most once over a whole run. -/
theorem Ledger.generations_nodup (h : s.Ledger) :
    (generations (s.committed ++ s.buffer.state.inFlight ++ s.buffer.state.pending)).Nodup := by
  have hl : (generations s.buffer.state.pending ++
      generations s.buffer.state.inFlight).Nodup := (List.nodup_append.mp h.fenced.nodup).1
  rw [List.append_assoc, generations_append, generations_append]
  refine h.committed_nodup.append (List.nodup_append_comm.mp hl) ?_
  intro g hc hg
  have hmem : g ∈ s.buffer.liveGenerations := by
    simp only [TableBuffer.liveGenerations, List.mem_append] at hg ⊢
    tauto
  exact absurd (h.committed_le g hc) (not_le.mpr (h.fenced.highWater_lt g hmem))

/-- The fence between generations, the byte accounting, and the place of every inserted entry. -/
structure BufferFence (s : FenceRun F α) : Prop where
  highWater_lt_inFlight :
    ∀ e ∈ s.buffer.state.inFlight, s.buffer.state.committedHighWater < e.generation
  inFlight_lt_reserved :
    ∀ e ∈ s.buffer.state.inFlight, ∀ g ∈ s.buffer.state.reservedGenerations.keys,
      e.generation < g
  inFlight_lt_pending :
    ∀ e ∈ s.buffer.state.inFlight, ∀ p ∈ s.buffer.state.pending, e.generation < p.generation
  distinct :
    (s.buffer.state.pending.map BufferEntry.generation ++
      s.buffer.state.inFlight.map BufferEntry.generation ++
      s.buffer.state.reservedGenerations.keys).Nodup
  pending_lt_nextGen : ∀ e ∈ s.buffer.state.pending, e.generation < s.buffer.state.nextGen
  inFlight_lt_nextGen : ∀ e ∈ s.buffer.state.inFlight, e.generation < s.buffer.state.nextGen
  reserved_lt_nextGen :
    ∀ g ∈ s.buffer.state.reservedGenerations.keys, g < s.buffer.state.nextGen
  pendingBytes_eq :
    s.buffer.state.pendingBytes = (s.buffer.state.pending.map BufferEntry.byteSize).sum
  inFlightBytes_eq :
    s.buffer.state.inFlightBytes = (s.buffer.state.inFlight.map BufferEntry.byteSize).sum
  reservedBytes_eq :
    s.buffer.state.reservedBytes = s.buffer.state.reservedGenerations.values.sum
  bytes_le :
    s.buffer.state.pendingBytes + s.buffer.state.inFlightBytes + s.buffer.state.reservedBytes ≤
      s.buffer.maxBytes
  exactly_one :
    ∀ e ∈ s.inserted,
      (e ∈ s.buffer.state.pending ∧ e ∉ s.buffer.state.inFlight ∧ e ∉ s.committed) ∨
      (e ∉ s.buffer.state.pending ∧ e ∈ s.buffer.state.inFlight ∧ e ∉ s.committed) ∨
      (e ∉ s.buffer.state.pending ∧ e ∉ s.buffer.state.inFlight ∧ e ∈ s.committed)
  inserted_perm :
    s.inserted.Perm (s.committed ++ s.buffer.state.inFlight ++ s.buffer.state.pending)
  inserted_nodup : s.inserted.Nodup

lemma Ledger.bufferFence (h : s.Ledger) : s.BufferFence := by
  have hall := List.Nodup.of_map _ h.generations_nodup
  obtain ⟨hl, hpd, hdj⟩ := List.nodup_append.mp hall
  obtain ⟨_, _, hset⟩ := List.nodup_append.mp hl
  have hgen : ∀ {es : List (BufferEntry α)} {e}, e ∈ es →
      e.generation ∈ generations es := fun he => mem_generations.mpr ⟨_, he, rfl⟩
  have hfli : ∀ e ∈ s.buffer.state.inFlight, e.generation ∈ s.buffer.liveGenerations :=
    fun e he => s.buffer.inFlight_subset_live _ (hgen he)
  have hw : ∀ e ∈ s.buffer.state.pending, e.generation ∈ s.buffer.liveGenerations := by
    intro e he
    simp only [TableBuffer.liveGenerations, List.mem_append]
    exact Or.inl (Or.inl (hgen he))
  refine ⟨fun e he => h.fenced.highWater_lt _ (hfli e he),
    fun e he => h.fenced.inFlight_lt_reserved _ (hgen he),
    fun e he p hp => h.fenced.inFlight_lt_pending _ (hgen he) _ (hgen hp), h.fenced.nodup,
    fun e he => h.fenced.lt_nextGen _ (hw e he),
    fun e he => h.fenced.lt_nextGen _ (hfli e he),
    fun g hg => h.fenced.lt_nextGen _ (s.buffer.reserved_subset_live g hg),
    h.fenced.pendingBytes_eq, h.fenced.inFlightBytes_eq, h.fenced.reservedBytes_eq,
    h.fenced.bytes_le, ?_, h.inserted_perm, h.inserted_perm.nodup_iff.mpr hall⟩
  intro e he
  have hpla := h.inserted_perm.mem_iff.mp he
  simp only [List.mem_append] at hpla
  rcases hpla with (hc | hf) | hp
  · refine Or.inr (Or.inr ⟨fun hp => ?_, fun hf => hset e hc e hf rfl, hc⟩)
    exact hdj e (List.mem_append_left _ hc) e hp rfl
  · refine Or.inr (Or.inl ⟨fun hp => ?_, hf, fun hc => hset e hc e hf rfl⟩)
    exact hdj e (List.mem_append_right _ hf) e hp rfl
  · refine Or.inl ⟨hp, fun hf => ?_, fun hc => ?_⟩
    · exact hdj e (List.mem_append_right _ hf) e hp rfl
    · exact hdj e (List.mem_append_left _ hc) e hp rfl

/-- A call that may fail keeps the ledger when its success does. -/
theorem Ledger.getD (h : s.Ledger) {res : TeoDBResult (TableBuffer F α)}
    (hok : ∀ buf, res = .ok buf → Ledger { s with buffer := buf }) :
    Ledger { s with buffer := res.toOption.getD s.buffer } := by
  cases res with
  | error e => exact h
  | ok buf => exact hok buf rfl

variable [BEq F]

lemma Ledger.applyFlush (h : s.Ledger) (op : FlushOp F) :
    Ledger { s with
      buffer := (s.buffer.applyFlush op).1
      committed := s.committed ++ (s.buffer.applyFlush op).2 } := by
  cases op with
  | drainPendingToInFlight =>
    simp only [TableBuffer.applyFlush, List.append_nil]
    exact h.of_rearranged h.fenced.drainPendingToInFlight (drain_reservedGenerations _)
      (drain_committedHighWater _) (drain_entries_perm h.fenced)
  | setPrepared prep =>
    simp only [TableBuffer.applyFlush, List.append_nil]
    apply h.getD
    intro buf hr
    rcases (TableBuffer.setPrepared_ok hr).2 with ⟨_, rfl⟩ | ⟨_, rfl⟩
    · exact h.of_rearranged (h.fenced.withFlushState _) rfl rfl (List.Perm.refl _)
    · exact h
  | markCommitted genHi md' pushedAt now =>
    cases hr : s.buffer.markCommitted genHi md' pushedAt now with
    | error e => simpa only [TableBuffer.applyFlush, hr, List.append_nil] using h
    | ok buf => simpa only [TableBuffer.applyFlush, hr] using h.markCommitted hr
  | rollbackUnpreparedFlush =>
    simp only [TableBuffer.applyFlush, List.append_nil]
    apply h.getD
    intro buf hr
    obtain ⟨_, rfl⟩ := TableBuffer.rollbackUnpreparedFlush_eq_ok.mp hr
    exact h.of_rearranged h.fenced.mergeInFlightBackToPending rfl rfl (List.Perm.refl _)
  | markFlushFailed prep =>
    simp only [TableBuffer.applyFlush, List.append_nil]
    apply h.getD
    intro buf hr
    obtain ⟨_, rfl⟩ := TableBuffer.markFlushFailed_eq_ok.mp hr
    exact h.of_rearranged (h.fenced.mergeInFlightBackToPending.withFlushState _) rfl rfl
      (List.Perm.refl _)
  | markFlushBlocked prep err n now =>
    simp only [TableBuffer.applyFlush, List.append_nil]
    apply h.getD
    intro buf hr
    obtain ⟨_, _, rfl⟩ := TableBuffer.markFlushBlockedWithClass_ok hr
    exact h.of_rearranged (h.fenced.withFlushState _) rfl rfl (List.Perm.refl _)

lemma Ledger.next (h : s.Ledger) {op : FenceOp F α} {s' : FenceRun F α}
    (hn : s.next op = some s') : s'.Ledger := by
  cases op with
  | reserve bt =>
    cases hr : s.buffer.reserve bt with
    | error e =>
      have hs : s = s' := by simpa [FenceRun.next, hr] using hn
      exact hs ▸ h
    | ok r =>
      have hs := by simpa [FenceRun.next, hr] using hn
      exact hs ▸ h.reserve hr
  | releaseReservation i =>
    obtain ⟨⟨r, bt⟩, hr, rfl⟩ := Option.map_eq_some_iff.mp hn
    exact h.releaseReservation (perm_of_getElem? hr)
  | insertReservedAt i batchId created =>
    obtain ⟨⟨r, bt⟩, hr, rfl⟩ := Option.map_eq_some_iff.mp hn
    exact h.insertReservedAt batchId created (perm_of_getElem? hr)
  | insert batchId bt created =>
    cases hr : s.buffer.insert batchId bt created with
    | error e =>
      have hs : s = s' := by simpa [FenceRun.next, hr] using hn
      exact hs ▸ h
    | ok r =>
      have hs := by simpa [FenceRun.next, hr] using hn
      exact hs ▸ h.insert hr
  | flush op =>
    cases hn
    exact h.applyFlush op

lemma Ledger.of_reachable (h : (machine F α).Reachable s) : s.Ledger :=
  h.invariant (by
    rintro _ ⟨ident, md, cm, maxBytes, softWatermarkBytes, grace, hmax, hc, rfl⟩
    exact Ledger.start ident md softWatermarkBytes grace hmax hc)
    fun _ _ _ hi hn => hi.next hn

/-- Every state that a run of calls reaches satisfies the fence. -/
theorem reachable_bufferFence (h : (machine F α).Reachable s) : s.BufferFence :=
  (Ledger.of_reachable h).bufferFence

/-- An empty buffer of a hundred bytes. -/
def emptyRun : FenceRun Unit Unit :=
  ⟨TableBuffer.new ⟨"analytics", "events"⟩ ⟨Uuid.ofNat 7, none, 0, [], OrdMap.empty⟩ 0 100 80
    hundred_le_u64Max, [], [], []⟩

/-- Two batches whose log appends end in the opposite order: the second drain takes both. -/
def outOfOrderInserts : List (FenceOp Unit Unit) :=
  [ .reserve ⟨[⟨(), 10⟩], 1, 16⟩, .reserve ⟨[⟨(), 20⟩], 2, 32⟩,
    .insertReservedAt 0 (Uuid.ofNat 2) 5, .flush .drainPendingToInFlight,
    .insertReservedAt 0 (Uuid.ofNat 1) 6, .flush .drainPendingToInFlight ]

theorem bufferFence_outOfOrderInserts :
    ∃ s, (machine Unit Unit).Reachable s ∧ generations s.buffer.state.inFlight = [2, 1] ∧
      s.BufferFence := by
  have hst : (machine Unit Unit).start emptyRun :=
    ⟨_, _, 0, 100, _, 0, by decide, by decide, rfl⟩
  have hrun : ((machine Unit Unit).exec emptyRun outOfOrderInserts).map
      (fun s => generations s.buffer.state.inFlight) = some [2, 1] := rfl
  obtain ⟨s, hs, hfli⟩ := Machine.exists_of_exec hst hrun
  exact ⟨s, hs, hfli, reachable_bufferFence hs⟩

end FenceRun

end TeoDB.Ingest.Buffer

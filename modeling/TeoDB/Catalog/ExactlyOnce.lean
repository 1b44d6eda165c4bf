import TeoDB.Catalog.Publication
import TeoDB.Core.PlainText

/-!
# Exactly-once publication

A published commit is recognised by the guard in every later state, so repeating
it succeeds without another snapshot. Together with the ledger of a table this
gives exactly-once publication.

## Implementation notes

A call for a published commit passes two loads, and each finds what it needs in
the history. `OnTrack` carries this along any run: the call is never waiting for
an update of its own.
-/

namespace TeoDB.Catalog

open TeoDB.Core Lib Lib.MachineInt Storage.Wal

section

variable {F L P : Type} {env : CatalogEnv F L P} {s s' : PubState F L} {t : CatalogTable L}
  {p : PreparedFlush F} {sn : Snapshot}

lemma Origin.find?_commitId {ident : TableIdent} (h : Origin env ident t p sn) :
    sn.summary.find? commitIdProperty = some (env.codec.uuidToString p.commitId.uuid) :=
  snapshotProperties_find? h.summary_eq (commitIdProperty, env.codec.uuidToString p.commitId.uuid)
    (List.mem_cons_self ..)

/-- The intent of a snapshot is determined by the commit identifier it carries. -/
theorem PubInv.origin_unique (hcodec : env.codec.Lawful) (h : PubInv env s) {ident : TableIdent}
    {p q : PreparedFlush F} (hor : Origin env ident t q sn) (hq : q ∈ s.intents)
    (hp : p ∈ s.intents)
    (hcom : sn.summary.find? commitIdProperty = some (env.codec.uuidToString p.commitId.uuid)) :
    q = p := by
  apply h.intent_eq hq hp
  have ht := Option.some.inj (hor.find?_commitId.symm.trans hcom)
  exact congrArg CommitId.mk (hcodec.toString_injective ht)

/-- A published identity is a snapshot of its table, made by the same intent. -/
theorem PubInv.origin_of_published (hcodec : env.codec.Lawful) (h : PubInv env s)
    (hp : p ∈ s.intents) (hpub : s.Published env.codec p.tableUuid p.identity) :
    ∃ t, s.tables p.table = some t ∧ ∃ sn ∈ t.metadata.snapshots, Origin env p.table t p sn := by
  obtain ⟨⟨uuid, sn⟩, hc, huuid, hall⟩ := hpub
  obtain ⟨ident, t, ht, htuuid⟩ := h.commits_table _ hc
  have hmem : sn ∈ t.metadata.snapshots := by
    rw [← h.commits_eq ident t ht]
    exact List.mem_map.mpr ⟨_, List.mem_filter.mpr ⟨hc, by simp [htuuid]⟩, rfl⟩
  obtain ⟨q, hq, hor, _⟩ := (h.table ident t ht).origin sn hmem
  have hcom := hall (commitIdProperty, env.codec.uuidToString p.commitId.uuid)
    (List.mem_cons_self ..)
  obtain rfl : q = p := h.origin_unique hcodec hor hq hp hcom
  obtain rfl := hor.table_eq
  exact ⟨t, ht, sn, hmem, hor⟩

/-- Each snapshot of the table compares cleanly with the identity of an intent. -/
theorem PubInv.matches_ok (hcodec : env.codec.Lawful) (h : PubInv env s) (hp : p ∈ s.intents)
    (ht : s.tables p.table = some t) (hmem : sn ∈ t.metadata.snapshots) :
    ∃ fd, snapshotMatchesAppendIdentity env.codec p.table p.tableUuid p.identity
      sn.snapshotId sn.summary = .ok fd := by
  obtain ⟨q, hq, hor, _⟩ := (h.table p.table t ht).origin sn hmem
  by_cases hcom : sn.summary.find? commitIdProperty = some (env.codec.uuidToString p.commitId.uuid)
  · obtain rfl := h.origin_unique hcodec hor hq hp hcom
    exact ⟨true, snapshotMatchesAppendIdentity_true (snapshotProperties_find? hor.summary_eq)⟩
  · exact ⟨false, snapshotMatchesAppendIdentity_false hcom⟩

/-- The guard recognises a published commit in every later state. -/
theorem PubInv.validate_published (hcdc : env.codec.Lawful) (h : PubInv env s)
    (hp : p ∈ s.intents) (ht : s.tables p.table = some t) (hmem : sn ∈ t.metadata.snapshots)
    (hor : Origin env p.table t p sn) :
    validate env (buildCommitRequest p) t.metadata = .error (.alreadyCommitted t.metadata) := by
  have htb := h.table p.table t ht
  obtain ⟨p', hp', hor', q, hq, c, hqc, hps⟩ := htb.origin sn hmem
  obtain rfl := h.origin_unique hcdc hor' hp' hp hor.find?_commitId
  refine validate_eq_alreadyCommitted hor.identity_valid hor.tableUuid_eq
    (htb.registry (List.ne_nil_of_mem hmem)) hps ?_ ?_
  · apply exactSnapshot_eq_true
    · exact fun x hx => h.matches_ok hcdc hp ht hx
    · exact ⟨sn, hmem, snapshotMatchesAppendIdentity_true (snapshotProperties_find? hor.summary_eq)⟩
  · by_cases hcom : c.commitId = p'.commitId
    · obtain rfl : q = p' := h.intent_eq hq hp (hqc.2.2.symm.trans hcom)
      refine ⟨true, ?_⟩
      have hepoch := hqc.1
      have hgen := hqc.2.1
      simp [exactCheckpoint, buildCommitRequest, PreparedFlush.identity, hcom, hepoch, hgen]
    · refine ⟨false, ?_⟩
      simp [exactCheckpoint, buildCommitRequest, PreparedFlush.identity, hcom]

/-- The transaction of a published commit can be built again. -/
theorem PubInv.build_published (hcodec : env.codec.Lawful) (h : PubInv env s)
    (hp : p ∈ s.intents) (hor : Origin env p.table t p sn) {nowMs : Int} (hnon : 0 ≤ nowMs)
    (hle : nowMs ≤ i64Max) :
    ∃ tx, buildAppendTransaction env (buildCommitRequest p) t.layout nowMs = .ok tx := by
  obtain ⟨⟨hepoch, hhi⟩, _⟩ := h.intent p hp
  obtain ⟨text, ht⟩ := hcodec.toJson_total
    (WriterCheckpoint.new p.writerEpoch p.generations.hi p.commitId nowMs)
    ⟨show writeProtocolVersion < 2 ^ 16 by decide, hepoch, hhi, hnon, hle⟩
  have hcp : checkpointProperty env (buildCommitRequest p) nowMs =
      .ok (writerCheckpointKey env.codec p.writerId, text) := by
    simp [checkpointProperty, not_lt.mpr hnon, not_lt.mpr hle, buildCommitRequest,
      PreparedFlush.identity, WriterCheckpoint.encode, ht]
  refine ⟨⟨sn.summary, (writerCheckpointKey env.codec p.writerId, text)⟩, ?_⟩
  have hcon : convertDataFiles env (buildCommitRequest p).table t.layout
      (buildCommitRequest p).addedDataFiles = .ok () := hor.converts
  simp [buildAppendTransaction, hor.summary_eq, hcp, hcon]

/-- A step of one call changes that call alone, and sends at most in its name. -/
structure OnlyCall (s s' : PubState F L) (id : Nat) : Prop where
  calls_eq : ∀ j, j ≠ id → s'.calls j = s.calls j
  wire_mem : ∀ sent ∈ s'.wire, sent ∈ s.wire ∨ sent.call = id

lemma OnlyCall.setCall (id : Nat) (c : Call F) : OnlyCall s (s.setCall id c) id where
  calls_eq := fun j hj => by simp [PubState.setCall, Function.update_of_ne hj]
  wire_mem := fun _ h => Or.inl h

variable {id : Nat}

lemma bootstrapStep_onlyCall {nowMs : Int} (h : bootstrapStep env s id nowMs = some s') :
    OnlyCall s s' id := by
  unfold bootstrapStep at h
  split at h
  · split at h
    · cases h
    · split at h <;> cases h <;> exact .setCall id _
  · cases h

lemma attemptStep_onlyCall {sid : Int} (h : attemptStep env s id sid = some s') :
    OnlyCall s s' id := by
  unfold attemptStep at h
  split at h
  · rename_i req tx _
    split at h
    · cases h
    · split at h
      · cases h
        exact .setCall id _
      · split_ifs at h
        cases h
        refine ⟨(OnlyCall.setCall id ⟨req, .waiting tx s.wire.length⟩).calls_eq, ?_⟩
        intro sent hs
        rcases mem_concat_iff.mp hs with hs | rfl
        · exact Or.inl hs
        · exact Or.inr rfl
  · cases h

lemma answerStep_onlyCall {id i : Nat} (h : answerStep env s id i = some s') :
    OnlyCall s s' id := by
  unfold answerStep at h
  split at h
  · split at h
    · cases h
    · split_ifs at h
      cases h
      exact .setCall id _
  · cases h

lemma failStep_onlyCall {e : IcebergError} {again : Bool}
    (h : failStep env s id e again = some s') : OnlyCall s s' id := by
  unfold failStep at h
  split at h
  · cases h
  · split at h
    · cases h
      exact .setCall id _
    · split_ifs at h <;> cases h <;> exact .setCall id _
    · cases h

lemma PubMove.keeps (hm : PubMove env s s') :
    s.intents ⊆ s'.intents ∧ s.commits ⊆ s'.commits ∧ s.callCount ≤ s'.callCount := by
  cases hm with
  | prepare => exact ⟨List.subset_append_left _ _, List.Subset.refl _, le_refl _⟩
  | begin => exact ⟨List.Subset.refl _, List.Subset.refl _, Nat.le_succ _⟩
  | deliver => exact ⟨List.Subset.refl _, List.subset_append_left _ _, le_refl _⟩
  | build | resume | send | restart | idle =>
    exact ⟨List.Subset.refl _, List.Subset.refl _, le_refl _⟩

/-- Calls and the messages they sent are numbered below the next call. -/
structure PubState.Numbered (s : PubState F L) : Prop where
  call_lt : ∀ id c, s.calls id = some c → id < s.callCount
  wire_lt : ∀ sent ∈ s.wire, sent.call < s.callCount

lemma PubState.Numbered.setCall (h : s.Numbered) (hid : id < s.callCount) (c : Call F) :
    (s.setCall id c).Numbered where
  call_lt := by
    intro j d hd
    by_cases hj : j = id
    · exact hj ▸ hid
    · exact h.call_lt j d (by simpa [PubState.setCall, Function.update_of_ne hj] using hd)
  wire_lt := h.wire_lt

lemma PubState.Numbered.move (h : s.Numbered) (hm : PubMove env s s') : s'.Numbered := by
  cases hm with
  | prepare | deliver | idle => exact ⟨h.call_lt, h.wire_lt⟩
  | begin p hp =>
    refine ⟨?_, fun sent hs => Nat.lt_succ_of_lt (h.wire_lt sent hs)⟩
    intro j d hd
    by_cases hj : j = s.callCount
    · exact hj ▸ Nat.lt_succ_self _
    · apply Nat.lt_succ_of_lt
      exact h.call_lt j d (by simpa [PubState.setCall, Function.update_of_ne hj] using hd)
  | build id req t nowMs tx hca => exact h.setCall (h.call_lt id _ hca) _
  | resume id c phase hca => exact h.setCall (h.call_lt id _ hca) _
  | send id req tx t sid hca =>
    have hid := h.call_lt id _ hca
    refine ⟨(h.setCall hid ⟨req, .waiting tx s.wire.length⟩).call_lt, ?_⟩
    intro sent hs
    rcases mem_concat_iff.mp hs with hs | rfl
    · exact h.wire_lt sent hs
    · exact hid
  | restart writer =>
    refine ⟨?_, h.wire_lt⟩
    intro j d hd
    obtain ⟨c, hc, _⟩ := Option.map_eq_some_iff.mp hd
    exact h.call_lt j c hc

lemma numbered_of_reachable (run : (publication env).Reachable s) : s.Numbered := by
  refine run.invariant (fun s h => ⟨?_, ?_⟩) fun _ _ _ h hn => h.move (next_move hn)
  · intro id c hc
    rw [h.calls_eq id] at hc
    cases hc
  · simp [h.wire_eq]

/-- A phase in which a call has no update of its own outstanding. -/
def CallPhase.quiet : CallPhase → Bool
  | waiting _ _ => false
  | _ => true

/-- A call that was begun for a published commit and has sent nothing. -/
structure OnTrack (env : CatalogEnv F L P) (s : PubState F L) (id : Nat)
    (p : PreparedFlush F) : Prop where
  intent_mem : p ∈ s.intents
  published : s.Published env.codec p.tableUuid p.identity
  lt_callCount : id < s.callCount
  no_update : ∀ sent ∈ s.wire, sent.call ≠ id
  quiet : ∃ phase, s.calls id = some ⟨buildCommitRequest p, phase⟩ ∧ phase.quiet = true

/-- A call that has returned has returned a success. -/
def CallPhase.Fine (phase : CallPhase) : Prop :=
  ∀ result, phase = .returned result → ∃ metadata, result = .ok metadata

/-- The environment serves a call: no load fails, and the clock reads a time that fits its type. -/
def Answered (id : Nat) : PubOp F → Prop
  | .fail call _ _ => call ≠ id
  | .bootstrap call nowMs => call = id → 0 ≤ nowMs ∧ nowMs ≤ i64Max
  | _ => True

section

variable {id : Nat} {p : PreparedFlush F} {phase : CallPhase}

/-- How the bootstrap load moves a call for a published commit. -/
theorem OnTrack.bootstrapStep_eq (hcdc : env.codec.Lawful) (hinv : PubInv env s)
    (h : OnTrack env s id p) (hc : s.calls id = some ⟨buildCommitRequest p, .begun⟩)
    {nowMs : Int} (hnon : 0 ≤ nowMs) (hle : nowMs ≤ i64Max) : ∃ tx, bootstrapStep env s id nowMs =
      some (s.setCall id ⟨buildCommitRequest p, .attempting tx⟩) := by
  obtain ⟨t, ht, sn, _, hor⟩ :=
    hinv.origin_of_published hcdc h.intent_mem h.published
  obtain ⟨tx, htx⟩ := hinv.build_published hcdc h.intent_mem hor hnon hle
  have ht' : s.tables (buildCommitRequest p).table = some t := ht
  exact ⟨tx, by simp [bootstrapStep, hc, ht', htx]⟩

/-- The guarded load ends a call for a published commit with success. -/
theorem OnTrack.attemptStep_eq (hcdc : env.codec.Lawful) (hinv : PubInv env s)
    (h : OnTrack env s id p) {tx : AppendTransaction}
    (hc : s.calls id = some ⟨buildCommitRequest p, .attempting tx⟩) (sid : Int) :
    ∃ md, attemptStep env s id sid =
      some (s.setCall id ⟨buildCommitRequest p, .returned (.ok md)⟩) := by
  obtain ⟨t, ht, sn, hmem, hor⟩ :=
    hinv.origin_of_published hcdc h.intent_mem h.published
  have hguard := hinv.validate_published hcdc h.intent_mem ht hmem hor
  obtain ⟨_, u, hu, hdom⟩ := hinv.intent p h.intent_mem
  obtain rfl : t = u := Option.some.inj (ht.symm.trans hu)
  have ht' : s.tables (buildCommitRequest p).table = some t := ht
  refine ⟨t.metadata, ?_⟩
  cases hcon : env.icebergToTeoMetadata p.table t.layout with
  | error e =>
    rw [hcon] at hdom
    cases hdom
  | ok _ =>
    have hcon' : env.icebergToTeoMetadata (buildCommitRequest p).table t.layout = .ok () :=
      hcon
    simp [attemptStep, hc, ht', hguard, guardResult, finish, hcon', Except.map]

lemma PubState.setCall_calls (s : PubState F L) (id : Nat) (c : Call F) :
    (s.setCall id c).calls id = some c := by
  simp [PubState.setCall]

/-- The phases that a call for a published commit can move to. -/
def QuietMove (op : PubOp F) (id : Nat) (phase phase' : CallPhase) : Prop :=
  phase'.quiet = true ∧ (Answered id op → phase.Fine → phase'.Fine)

lemma QuietMove.refl {op : PubOp F} (h : phase.quiet = true) : QuietMove op id phase phase :=
  ⟨h, fun _ hf => hf⟩

lemma OnTrack.own_bootstrap (hcodec : env.codec.Lawful) (hinv : PubInv env s)
    (h : OnTrack env s id p) (hc : s.calls id = some ⟨buildCommitRequest p, phase⟩)
    {nowMs : Int} (hn : bootstrapStep env s id nowMs = some s') :
    (∀ sent ∈ s'.wire, sent.call ≠ id) ∧ ∃ ph', s'.calls id = some ⟨buildCommitRequest p, ph'⟩ ∧
        QuietMove (.bootstrap id nowMs : PubOp F) id phase ph' := by
  cases phase with
  | begun =>
    by_cases hclo : 0 ≤ nowMs ∧ nowMs ≤ i64Max
    · obtain ⟨tx, htx⟩ := h.bootstrapStep_eq hcodec hinv hc hclo.1 hclo.2
      cases htx.symm.trans hn
      refine ⟨h.no_update, _, s.setCall_calls id _, rfl, ?_⟩
      intro _ _ result hres
      cases hres
    · unfold bootstrapStep at hn
      rw [hc] at hn
      simp only at hn
      split at hn
      · cases hn
      · split at hn <;> cases hn <;>
          exact ⟨h.no_update, _, s.setCall_calls id _, rfl, fun hans => absurd (hans rfl) hclo⟩
  | attempting | waiting | returned | dropped => simp [bootstrapStep, hc] at hn

lemma OnTrack.own_attempt (hcodec : env.codec.Lawful) (hinv : PubInv env s)
    (h : OnTrack env s id p) (hc : s.calls id = some ⟨buildCommitRequest p, phase⟩)
    {sid : Int} (hn : attemptStep env s id sid = some s') :
    (∀ sent ∈ s'.wire, sent.call ≠ id) ∧ ∃ ph', s'.calls id = some ⟨buildCommitRequest p, ph'⟩ ∧
        QuietMove (.attempt id sid : PubOp F) id phase ph' := by
  cases phase with
  | attempting tx =>
    obtain ⟨md, hatt⟩ := h.attemptStep_eq hcodec hinv hc sid
    cases hatt.symm.trans hn
    refine ⟨h.no_update, _, s.setCall_calls id _, rfl, ?_⟩
    intro _ _ result hres
    cases hres
    exact ⟨md, rfl⟩
  | begun | waiting | returned | dropped => simp [attemptStep, hc] at hn

lemma OnTrack.own_fail (h : OnTrack env s id p)
    (hc : s.calls id = some ⟨buildCommitRequest p, phase⟩) (hquiet : phase.quiet = true)
    {e : IcebergError} {again : Bool} (hn : failStep env s id e again = some s') :
    (∀ sent ∈ s'.wire, sent.call ≠ id) ∧ ∃ ph', s'.calls id = some ⟨buildCommitRequest p, ph'⟩ ∧
        QuietMove (.fail id e again : PubOp F) id phase ph' := by
  have hv : ∀ ph' : CallPhase, Answered id (.fail id e again : PubOp F) → phase.Fine →
      ph'.Fine := fun _ hans => absurd rfl hans
  unfold failStep at hn
  rw [hc] at hn
  cases phase with
  | begun =>
    cases hn
    exact ⟨h.no_update, _, s.setCall_calls id _, rfl, hv _⟩
  | attempting tx =>
    simp only [CallPhase.transaction] at hn
    split_ifs at hn <;> cases hn <;> exact ⟨h.no_update, _, s.setCall_calls id _, rfl, hv _⟩
  | waiting tx message => cases hquiet
  | returned result => cases hn
  | dropped => cases hn

lemma OnTrack.other (h : OnTrack env s id p)
    (hc : s.calls id = some ⟨buildCommitRequest p, phase⟩) (hquiet : phase.quiet = true)
    {op : PubOp F} {j : Nat} (ho : OnlyCall s s' j) (hne : id ≠ j) :
    (∀ sent ∈ s'.wire, sent.call ≠ id) ∧ ∃ ph',
      s'.calls id = some ⟨buildCommitRequest p, ph'⟩ ∧ QuietMove op id phase ph' := by
  refine ⟨?_, phase, (ho.calls_eq id hne).trans hc, QuietMove.refl hquiet⟩
  intro sent hs heq
  rcases ho.wire_mem sent hs with hold | hnew
  · exact h.no_update sent hold heq
  · exact hne (heq.symm.trans hnew)

lemma restart_phase
    (hc : s.calls id = some ⟨buildCommitRequest p, phase⟩) (hqui : phase.quiet = true)
    (wr : WriterId) :
    ∃ ph', (s.calls id).map (Call.afterRestart wr) = some ⟨buildCommitRequest p, ph'⟩ ∧
      QuietMove (.restart wr : PubOp F) id phase ph' := by
  rw [hc, Option.map_some]
  unfold Call.afterRestart
  split_ifs
  · cases phase with
    | returned res => exact ⟨_, rfl, QuietMove.refl hqui⟩
    | begun | attempting | waiting | dropped =>
      refine ⟨.dropped, rfl, rfl, ?_⟩
      intro _ _ res hres
      cases hres
  · exact ⟨phase, rfl, QuietMove.refl hqui⟩

lemma OnTrack.phase_step (hcdc : env.codec.Lawful) (hinv : PubInv env s)
    (h : OnTrack env s id p) (hc : s.calls id = some ⟨buildCommitRequest p, phase⟩)
    (hqui : phase.quiet = true) {op : PubOp F} (hn : s.next env op = some s') :
    (∀ sent ∈ s'.wire, sent.call ≠ id) ∧ ∃ ph',
      s'.calls id = some ⟨buildCommitRequest p, ph'⟩ ∧ QuietMove op id phase ph' := by
  cases op with
  | prepare q =>
    simp only [PubState.next, prepareStep] at hn
    split at hn
    · cases hn
    · split_ifs at hn
      cases hn
      exact ⟨h.no_update, phase, hc, QuietMove.refl hqui⟩
  | commitFlush intent =>
    simp only [PubState.next, commitFlushStep] at hn
    split at hn
    · cases hn
    · cases hn
      refine ⟨h.no_update, phase, ?_, QuietMove.refl hqui⟩
      have hne := h.lt_callCount.ne
      simpa [PubState.setCall, Function.update_of_ne hne] using hc
  | bootstrap j nowMs =>
    by_cases hj : id = j
    · subst hj
      exact h.own_bootstrap hcdc hinv hc hn
    · exact h.other hc hqui (bootstrapStep_onlyCall hn) hj
  | attempt j sid =>
    by_cases hj : id = j
    · subst hj
      exact h.own_attempt hcdc hinv hc hn
    · exact h.other hc hqui (attemptStep_onlyCall hn) hj
  | deliver msg =>
    simp only [PubState.next, deliverStep] at hn
    split at hn
    · cases hn
    · split at hn
      · cases hn
      · split at hn <;> cases hn <;> exact ⟨h.no_update, phase, hc, QuietMove.refl hqui⟩
  | answer j index =>
    by_cases hj : id = j
    · subst hj
      cases phase with
      | waiting tx msg => cases hqui
      | begun | attempting | returned | dropped =>
        simp [PubState.next, answerStep, hc] at hn
    · exact h.other hc hqui (answerStep_onlyCall hn) hj
  | fail j error again =>
    by_cases hj : id = j
    · subst hj
      exact h.own_fail hc hqui hn
    · exact h.other hc hqui (failStep_onlyCall hn) hj
  | restart wr =>
    cases hn
    exact ⟨h.no_update, restart_phase hc hqui wr⟩

/-- A call for a published commit stays on track, whatever else happens. -/
theorem OnTrack.step (hcodec : env.codec.Lawful) (hinv : PubInv env s) (h : OnTrack env s id p)
    {op : PubOp F} (hn : s.next env op = some s') : OnTrack env s' id p := by
  obtain ⟨phase, hcall, hquiet⟩ := h.quiet
  obtain ⟨hw, ph', hc', hquiet', _⟩ := h.phase_step hcodec hinv hcall hquiet hn
  obtain ⟨hint, hcom, hct⟩ := (next_move hn).keeps
  obtain ⟨c, hc, hpub⟩ := h.published
  exact {
      intent_mem := hint h.intent_mem
      published := ⟨c, hcom hc, hpub⟩
      lt_callCount := lt_of_lt_of_le h.lt_callCount hct
      no_update := hw
      quiet := ⟨ph', hc', hquiet'⟩ }

/-- A call that has sent no update, and that ends in success as soon as its loads
are answered. -/
structure Succeeds (env : CatalogEnv F L P) (s : PubState F L) (id : Nat) : Prop where
  no_update : ∀ sent ∈ s.wire, sent.call ≠ id
  progress : match s.calls id with
    | some ⟨_, .begun⟩ => ∀ nowMs, 0 ≤ nowMs → nowMs ≤ i64Max → ∃ s' request tx,
        s.next env (.bootstrap id nowMs) = some s' ∧
          s'.calls id = some ⟨request, .attempting tx⟩
    | some ⟨_, .attempting _⟩ => ∀ snapshotId, ∃ s' request metadata,
        s.next env (.attempt id snapshotId) = some s' ∧
          s'.calls id = some ⟨request, .returned (.ok metadata)⟩
    | some ⟨_, .returned result⟩ => ∃ metadata, result = .ok metadata
    | some ⟨_, .dropped⟩ => True
    | some ⟨_, .waiting _ _⟩ | none => False

lemma OnTrack.succeeds (hcdc : env.codec.Lawful) (hinv : PubInv env s) (h : OnTrack env s id p)
    (hf : ∀ c, s.calls id = some c → c.phase.Fine) : Succeeds env s id := by
  refine ⟨h.no_update, ?_⟩
  obtain ⟨phase, hc, hquiet⟩ := h.quiet
  rw [hc]
  cases phase with
  | begun =>
    intro nowMs hnon hle
    obtain ⟨tx, htx⟩ := h.bootstrapStep_eq hcdc hinv hc hnon hle
    exact ⟨_, _, tx, htx, s.setCall_calls id _⟩
  | attempting tx =>
    intro sid
    obtain ⟨md, hatt⟩ := h.attemptStep_eq hcdc hinv hc sid
    exact ⟨_, _, md, hatt, s.setCall_calls id _⟩
  | waiting tx message => cases hquiet
  | returned res => exact hf _ hc res rfl
  | dropped => trivial

/-- A call that begins for a published commit is on track. -/
theorem onTrack_of_commitFlush {it : Nat} (hp : s.intents[it]? = some p)
    (hpub : s.Published env.codec p.tableUuid p.identity) (hnum : s.Numbered)
    (hn : s.next env (.commitFlush it) = some s') :
    OnTrack env s' s.callCount p ∧ ∀ c, s'.calls s.callCount = some c → c.phase.Fine := by
  simp only [PubState.next, commitFlushStep, hp] at hn
  cases hn
  refine ⟨⟨List.mem_of_getElem? hp, hpub, Nat.lt_succ_self _, ?_, .begun,
    s.setCall_calls _ _, rfl⟩, ?_⟩
  · exact fun sent hs => (hnum.wire_lt sent hs).ne
  · intro c hc
    have hcall := (s.setCall_calls s.callCount ⟨buildCommitRequest p, .begun⟩).symm.trans hc
    cases hcall
    intro result hres
    cases hres

end

/-- Each generation of a writer is in at most one snapshot ever committed to an incarnation, and a
call whose identity is published sends no update and succeeds. -/
theorem publication_exactlyOnce (env : CatalogEnv F L P) (hcodec : env.codec.Lawful)
    {s : PubState F L} (run : (publication env).Reachable s) :
    (∀ tableUuid w g,
      s.commits.countP (fun c => decide (c.1 = tableUuid) && carries env.codec w g c.2) ≤ 1) ∧
    ∀ intent p s', s.intents[intent]? = some p → s.Published env.codec p.tableUuid p.identity →
      s.next env (.commitFlush intent) = some s' →
        (∀ t, (publication env).Leads s' t → ∀ sent ∈ t.wire, sent.call ≠ s.callCount) ∧
        ∀ t, (publication env).LeadsIf (fun _ => Answered s.callCount) s' t →
          Succeeds env t s.callCount := by
  have hinv := pubInv_of_reachable hcodec run
  refine ⟨hinv.commits_once, ?_⟩
  intro intent p s' hp hpub hne
  obtain ⟨htrc, hf⟩ :=
    onTrack_of_commitFlush hp hpub (numbered_of_reachable run) hne
  have hinv' : PubInv env s' := hinv.move hcodec (next_move hne)
  constructor
  · intro t hlea
    have hb : PubInv env t ∧ OnTrack env t s.callCount p := by
      apply hlea.preserves ⟨hinv', htrc⟩
      exact fun _ _ _ h hn => ⟨h.1.move hcodec (next_move hn), h.2.step hcodec h.1 hn⟩
    exact hb.2.no_update
  · intro t hlea
    have hall : PubInv env t ∧ OnTrack env t s.callCount p ∧
        ∀ c, t.calls s.callCount = some c → c.phase.Fine := by
      apply hlea.preserves ⟨hinv', htrc, hf⟩
      rintro a op b ⟨hi, htra, hfinea⟩ hans hn
      obtain ⟨phase, hca, hquiet⟩ := htra.quiet
      obtain ⟨_, phase', hc', hm⟩ := htra.phase_step hcodec hi hca hquiet hn
      refine ⟨hi.move hcodec (next_move hn), htra.step hcodec hi hn, ?_⟩
      intro c hc
      cases hc'.symm.trans hc
      exact hm.2 hans (hfinea _ hca)
    exact hall.2.1.succeeds hcodec hall.1 hall.2.2

end

def plainEnv : CatalogEnv Unit Unit Unit where
  codec := PlainText.codec
  maxWriterCheckpointsPerTable := 8
  partitionSpecId _ := 0
  partitionSpecById _ _ := some ()
  teodbDataFileToIceberg _ _ := .ok ()
  icebergToTeoMetadata _ _ := .ok ()

def ordersTable : TableIdent := ⟨"sales", "orders"⟩

/-- A catalog with one new table. -/
def newCatalog : PubState Unit Unit where
  tables ident :=
    if ident = ordersTable then some ⟨⟨Uuid.ofNat 7, none, 0, [], OrdMap.empty⟩, ()⟩ else none
  intents := []
  calls _ := none
  callCount := 0
  wire := []
  answers := []
  commits := []

lemma newCatalog_start : newCatalog.Start where
  noSnapshot := by
    intro ident t ht
    simp only [newCatalog] at ht
    split_ifs at ht
    cases ht
    exact ⟨rfl, rfl⟩
  uuid_inj := by
    intro i j t u ht hu _
    simp only [newCatalog] at ht hu
    split_ifs at ht hu with hi hj
    exact hi.trans hj.symm
  intents_eq := rfl
  calls_eq _ := rfl
  wire_eq := rfl
  commits_eq := rfl

def ordersFlush : PreparedFlush Unit :=
  PreparedFlush.new ordersTable (Uuid.ofNat 7) ⟨Uuid.ofNat 1⟩ ⟨1⟩ ⟨Uuid.ofNat 9⟩ ⟨1, 2⟩ 2 1000
    [()] none

/-- The update arrives twice, and its answer is lost. -/
def lostAnswer : List (PubOp Unit) :=
  [.prepare ordersFlush, .commitFlush 0, .bootstrap 0 1000, .attempt 0 42, .deliver 0, .deliver 0,
    .fail 0 ⟨.unexpected, false, false, "timeout"⟩ false]

/-- The flush that saw no answer is published, and its retry succeeds. -/
theorem publication_exactlyOnce_lostAnswer :
    ∃ s s', (publication plainEnv).Reachable s ∧ s.commits.length = 1 ∧
      s.next plainEnv (.commitFlush 0) = some s' ∧
      (∀ tableUuid w g, s.commits.countP
        (fun c => decide (c.1 = tableUuid) && carries PlainText.codec w g c.2) ≤ 1) ∧
      ∀ t, (publication plainEnv).LeadsIf (fun _ => Answered s.callCount) s' t →
        Succeeds plainEnv t s.callCount := by
  have hrun : ((publication plainEnv).exec newCatalog lostAnswer).map (fun s =>
      (s.commits.length, s.intents.map fun p => (p.tableUuid, p.identity),
        decide (s.Published PlainText.codec ordersFlush.tableUuid ordersFlush.identity))) =
      some (1, [(ordersFlush.tableUuid, ordersFlush.identity)], true) := by
    decide +kernel
  obtain ⟨s, hs, hobs⟩ := Machine.exists_of_exec newCatalog_start hrun
  obtain ⟨hcom, hint, hpub⟩ :
      s.commits.length = 1 ∧ s.intents.map (fun p => (p.tableUuid, p.identity)) =
        [(ordersFlush.tableUuid, ordersFlush.identity)] ∧
      s.Published PlainText.codec ordersFlush.tableUuid ordersFlush.identity := by
    simpa using hobs
  obtain ⟨p, hp, hidn⟩ := List.map_eq_singleton_iff.mp hint
  have hfst : s.intents[0]? = some p := by rw [hp]; rfl
  have hpub' : s.Published plainEnv.codec p.tableUuid p.identity := by
    rw [(Prod.mk.inj hidn).1, (Prod.mk.inj hidn).2]
    exact hpub
  have hn : s.next plainEnv (.commitFlush 0) =
      some { s.setCall s.callCount ⟨buildCommitRequest p, .begun⟩ with
        callCount := s.callCount + 1 } := by
    simp [PubState.next, commitFlushStep, hfst]
  obtain ⟨ho, hretry⟩ := publication_exactlyOnce plainEnv PlainText.codec_lawful hs
  exact ⟨s, _, hs, hcom, hn, ho, (hretry 0 p _ hfst hpub' hn).2⟩

end TeoDB.Catalog

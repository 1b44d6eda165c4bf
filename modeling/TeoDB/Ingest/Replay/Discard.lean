import TeoDB.Ingest.Replay.World

/-!
# Recovery and missing tables

Recovery skips the records of a table that the catalog does not have, and appends a tombstone for
it. The adapter takes an unexpected error for a missing table when its text contains one of four
phrases. `replay_keeps_records_iff` states that nothing else discards them.
-/

namespace TeoDB.Ingest.Replay

open TeoDB.Core Lib Lib.Async Catalog Storage.Wal Ingest.Buffer
  Ingest.Flush

variable {F α : Type}

namespace LoadError

/-- The catalog says that the table or its namespace does not exist. -/
def Definite : LoadError → Prop
  | catalog error => error.kind = .tableNotFound ∨ error.kind = .namespaceNotFound
  | conversion _ => False

/-- An unexpected error with a text that the adapter takes for a missing table. -/
def Misread : LoadError → Prop
  | catalog error => error.kind = .unexpected ∧
      (containsText error.text "404" = true ∨ containsText error.text "NoSuchTable" = true ∨
        containsText error.text "not found" = true ∨
        containsText error.text "does not exist" = true)
  | conversion _ => False

lemma isNotFound_mapUnexpected (text : String) : isNotFound (mapUnexpected text) = true ↔
    containsText text "404" = true ∨ containsText text "NoSuchTable" = true ∨
      containsText text "not found" = true ∨ containsText text "does not exist" = true := by
  unfold mapUnexpected
  split_ifs with h
  · simpa [isNotFound, or_assoc] using h
  all_goals simp_all [isNotFound]

lemma isNotFound_intoTeoDB {e : LoadError} (h : e.possible = true) :
    isNotFound e.intoTeoDB = true ↔ e.Definite ∨ e.Misread := by
  cases e with
  | conversion err =>
    have hpl : isNotFound err = false := by simpa [possible] using h
    simp [intoTeoDB, Definite, Misread, hpl]
  | catalog err =>
    obtain ⟨kind, retryable, connectFailure, text⟩ := err
    cases kind with
    | unexpected =>
      simpa [intoTeoDB, mapIcebergError, Definite, Misread] using isNotFound_mapUnexpected text
    | _ => simp [intoTeoDB, mapIcebergError, Definite, Misread, isNotFound]

end LoadError

/-- When the last load of the table has failed, recovery returns an error. No record of the table is
skipped, and it gets no tombstone. -/
structure Accounted (table : TableIdent) (result : TeoDBResult Unit) (w : RecoveryWorld F α) :
    Prop where
  fails : ∀ e, w.lastLoad table = some (.error e) → ∃ error, result = .error error
  records : ∀ entry ∈ w.recovery.outcomes, entry.1.header.table = table → entry.2 ≠ .dropped
  tombstones : table ∉ w.tombstones

namespace RecoveryWorld

section

variable (table : TableIdent) (errors : LoadError → Prop)

/-- Only the given errors were answered to loads of the table. -/
def Expected (w : RecoveryWorld F α) : Prop := ∀ e, (table, .error e) ∈ w.loads → errors e

/-- The table has lost nothing. -/
def Clean (w : RecoveryWorld F α) : Prop :=
  (∀ entry ∈ w.recovery.outcomes, entry.1.header.table = table → entry.2 ≠ .dropped) ∧
    table ∉ w.tombstones

/-- The last load of the table has not failed. -/
def Loaded (w : RecoveryWorld F α) : Prop := ∀ e, w.lastLoad table ≠ some (.error e)

/-- The records that are still to be read belong to the plan. -/
def Reads (records : List (WalRecord α)) (w : RecoveryWorld F α) : Prop :=
  w.records = records ∧ w.unread ⊆ records

/-- While only the given errors occur, the table has lost nothing and its last load has not failed.
-/
def accounting (records : List (WalRecord α)) (known : Prop) : Frame (RecoveryWorld F α) where
  idle w := w.Reads records ∧ (w.Expected table errors → w.Clean table ∧ w.Loaded table ∧ known)
  loading other w := w.Reads records ∧
    (w.Expected table errors → w.Clean table ∧ (other ≠ table → w.Loaded table) ∧ known)
  failed w := w.Expected table errors → w.Clean table

variable {table errors} {rs : List (WalRecord α)} {known : Prop} {w w' : RecoveryWorld F α}

lemma lastLoad_append (o : TableIdent) (res : LoadResult) :
    ({ w with loads := w.loads ++ [(o, res)] } : RecoveryWorld F α).lastLoad table =
      if o = table then some res else w.lastLoad table := by
  unfold lastLoad
  split_ifs with h <;> simp [List.filter_append, h]

lemma Expected.of_append {o : TableIdent} {res : LoadResult}
    (h : ({ w with loads := w.loads ++ [(o, res)] } : RecoveryWorld F α).Expected table
      errors) : w.Expected table errors :=
  fun e he => h e (List.mem_append_left _ he)

variable (table errors rs known) in
lemma accounting_rules : (accounting (F := F) table errors rs known).Rules answers here where
  idle_loading o w h := ⟨h.1, fun he => ⟨(h.2 he).1, fun _ => (h.2 he).2.1, (h.2 he).2.2⟩⟩
  loading_failed o w h he := (h.2 he).1
  idle_failed h he := (h.2 he).1
  idle_buffers w buffers h := h
  failed_buffers w buffers h := h
  answer w c a w' h hc ha := by
    obtain ⟨ch, ha⟩ := ha
    obtain ⟨rfl, hpl⟩ := respond_routine hc ha
    exact ⟨h, hpl⟩
  load w o a w' h ha := by
    obtain ⟨ch, ha⟩ := ha
    obtain ⟨res, _, rfl, rfl⟩ := respond_loadTable ha
    refine ⟨⟨h.1, fun he => ?_⟩, fun m hm => ⟨h.1, fun he => ?_⟩⟩
    · obtain ⟨hcl, hld, hkn⟩ := h.2 he.of_append
      refine ⟨hcl, fun hne e => ?_, hkn⟩
      rw [lastLoad_append, if_neg hne]
      exact hld hne e
    · obtain ⟨hcl, hld, hkn⟩ := h.2 he.of_append
      refine ⟨hcl, fun e => ?_, hkn⟩
      rw [lastLoad_append]
      split_ifs with hs
      · rintro ⟨⟩
        cases hm
      · exact hld hs e
  reload w o a w' h ha := by
    obtain ⟨ch, ha⟩ := ha
    obtain ⟨res, _, rfl, rfl⟩ := respond_loadTable ha
    exact fun he => h he.of_append

lemma accounting_known {known' : Prop} (h : (accounting table errors rs known).idle w)
    (hkn : known → known') : (accounting table errors rs known').idle w :=
  ⟨h.1, fun he => ⟨(h.2 he).1, (h.2 he).2.1, hkn (h.2 he).2.2⟩⟩

/-- Without a misread error, only another table is missing. -/
lemma accounting_missing (herr : ∀ e, errors e → ¬ e.Definite ∧ ¬ e.Misread)
    {o : TableIdent} {err : TeoDBError} (h : (accounting table errors rs known).idle w)
    (ha : answers w (.loadTable o) (.error err) w') (hmis : isNotFound err = true) :
    (accounting table errors rs (known ∧ o ≠ table)).idle w' := by
  obtain ⟨choice, ha⟩ := ha
  obtain ⟨res, hpos, han, rfl⟩ := respond_loadTable ha
  cases res with
  | ok m => cases han
  | error e =>
    cases han
    refine ⟨h.1, fun he => ?_⟩
    have hot : o ≠ table := by
      rintro rfl
      have hnot := herr e (he e List.mem_concat_self)
      rcases (LoadError.isNotFound_intoTeoDB hpos).mp hmis with hd | hm
      · exact hnot.1 hd
      · exact hnot.2 hm
    obtain ⟨hcl, hld, hkn⟩ := h.2 he.of_append
    refine ⟨hcl, fun e' => ?_, hkn, hot⟩
    rw [lastLoad_append, if_neg hot]
    exact hld e'

/-- A change of the recovery state that keeps the outcomes keeps the account. -/
lemma accounting_state {state : RecoveryState F α} (h : (accounting table errors rs known).idle w)
    (hout : state.outcomes = w.recovery.outcomes) :
    (accounting table errors rs known).idle (here.set w state) := by
  refine ⟨h.1, fun he => ?_⟩
  obtain ⟨hcl, hr⟩ := h.2 he
  refine ⟨⟨fun en hen => hcl.1 en ?_, hcl.2⟩, hr⟩
  rw [← hout]
  exact hen

lemma observe_spec {rc : WalRecord α} {out : RecordOutcome}
    (h : (accounting table errors rs known).idle w)
    (hrec : known → rc.header.table = table → out ≠ .dropped) :
    wp (.alone answers) (accounting table errors rs known).ended
      (observe (F := F) here rc out) w := by
  refine wp_alone_modify.mpr ⟨h.1, fun he => ?_⟩
  obtain ⟨hcl, hr⟩ := h.2 he
  refine ⟨⟨fun en hen htb => ?_, hcl.2⟩, hr⟩
  rcases mem_concat_iff.mp hen with hold | rfl
  · exact hcl.1 en hold htb
  · exact hrec hr.2 htb

section

variable {cfg : ReplayConfig F}

/-- Every incarnation of the table among the keys has its metadata. -/
def Targeted (table : TableIdent) (keys : List WalTableKey) (targets : List Target) : Prop :=
  ∀ key ∈ keys, key.ident = table → (findTarget targets key).isSome

lemma loadTargetMetadata_spec (herr : ∀ e, errors e → ¬ e.Definite ∧ ¬ e.Misread)
    (wr : WriterId) (keys : List WalTableKey) (h : (accounting table errors rs known).idle w) :
    wp (.alone answers) (ends (fun targets => (accounting table errors rs
        (known ∧ Targeted table keys targets)).idle) (accounting table errors rs known).failed)
      (loadTargetMetadata (F := F) (α := α) cfg wr keys) w := by
  induction keys generalizing w known with
  | nil => exact accounting_known h fun hkn => ⟨hkn, fun _ h => absurd h List.not_mem_nil⟩
  | cons key rest ih =>
    have rules := accounting_rules (F := F) table errors rs known
    refine wp_alone_request_bind.mpr fun a w' ha => ?_
    obtain ⟨hloa, hi⟩ := rules.load w key.ident a w' (rules.idle_loading key.ident w h) ha
    cases a with
    | error err =>
      dsimp only
      split
      · rename_i hmis
        refine wp_mono (fun r w hr => ?_) (ih (accounting_missing herr h ha hmis))
        cases r with
        | error e => exact hr
        | ok targets =>
          refine accounting_known hr ?_
          rintro ⟨⟨hkn, hot⟩, htar⟩
          refine ⟨hkn, fun key' hmem htb => ?_⟩
          rcases List.mem_cons.mp hmem with rfl | hmem
          · exact absurd htb hot
          · exact htar key' hmem htb
      · exact fun he => (hloa.2 he).1
    | ok m =>
      have hw' := hi m rfl
      dsimp only
      split
      · exact rules.idle_failed hw'
      · refine wp_lift_bind (fun _ _ => ?_) fun _ _ => rules.idle_failed hw'
        refine wp_lift_bind (fun cp _ => ?_) fun _ _ => rules.idle_failed hw'
        refine wp_bind_of (ih hw') fun targets w hw => ?_
        refine accounting_known hw ?_
        rintro ⟨hkn, htar⟩
        refine ⟨hkn, fun key' hmem htb => ?_⟩
        by_cases hkey : key = key'
        · simp [findTarget, hkey]
        · have ht := htar key' (List.mem_of_ne_of_mem (Ne.symm hkey) hmem) htb
          simpa [findTarget, hkey] using ht

lemma claimKey_spec (head : WalHeader) (h : (accounting table errors rs known).idle w) :
    wp (.alone answers) (accounting table errors rs known).ended
      (claimKey (F := F) here cfg head) w := by
  have rules := accounting_rules (F := F) table errors rs known
  unfold claimKey
  cases head.idempotencyKey with
  | none => exact h
  | some key =>
    refine rules.call_bind rfl h fun held w hw => rules.call_bind rfl hw fun now w hw => ?_
    exact wp_alone_ref_perform.mpr (accounting_state hw rfl)

lemma abortKey_spec (head : WalHeader) (h : (accounting table errors rs known).failed w) :
    wp (.alone answers) (fun _ => (accounting table errors rs known).failed)
      (abortKey (F := F) here head) w := by
  unfold abortKey
  cases head.idempotencyKey with
  | none => exact h
  | some key => exact wp_alone_modify.mpr h

lemma completeKey_spec (wr : WriterId) (head : WalHeader)
    (h : (accounting table errors rs known).idle w) :
    wp (.alone answers) (accounting table errors rs known).ended
      (completeKey (F := F) here wr head) w := by
  unfold completeKey
  cases head.idempotencyKey with
  | none => exact h
  | some key => exact wp_alone_modify.mpr (accounting_state h rfl)

variable {keys : List WalTableKey} {tgs : List Target}

lemma appendDropTombstone_spec {o : TableIdent}
    (h : (accounting table errors rs (Targeted table keys tgs)).idle w)
    (hot : Targeted table keys tgs → o ≠ table) :
    wp (.alone answers) (accounting table errors rs (Targeted table keys tgs)).ended
      (do Async.lift (← call (.appendDropTombstone o)) : Prog F α (RecoveryWorld F α) Unit)
      w := by
  refine wp_alone_request_bind.mpr fun a w' ha => ?_
  obtain ⟨choice, ha⟩ := ha
  obtain rfl := respond_appendDropTombstone ha
  have hw' : (accounting (F := F) table errors rs (Targeted table keys tgs)).idle
      { w with tombstones := w.tombstones ++ [o] } := by
    refine ⟨h.1, fun he => ?_⟩
    obtain ⟨hcl, hld, hkn⟩ := h.2 he
    refine ⟨⟨hcl.1, fun hmem => ?_⟩, hld, hkn⟩
    rcases mem_concat_iff.mp hmem with hold | hnew
    · exact hcl.2 hold
    · exact hot hkn hnew.symm
  cases a with
  | ok u => exact hw'
  | error e => exact (accounting_rules (F := F) table errors rs _).idle_failed hw'

/-- A table without an incarnation that is missing gets no tombstone. -/
lemma Targeted.not_mem_droppedTables (h : Targeted table keys tgs) :
    table ∉ droppedTables keys tgs := by
  intro hmem
  obtain ⟨key, hkey, rfl⟩ := List.mem_map.mp (List.mem_dedup.mp hmem)
  obtain ⟨hkey, hn⟩ := List.mem_filter.mp hkey
  have hs := h key hkey rfl
  rw [Option.isNone_iff_eq_none.mp hn] at hs
  cases hs

variable [BEq F]

lemma replayRecord_spec (wr : WriterId) (prep : List (PreparedFlush F))
    {rc : WalRecord α} (hkey : ∀ key, rc.header.tableKey = .ok key → key ∈ keys)
    (h : (accounting table errors rs (Targeted table keys tgs)).idle w) :
    wp (.alone answers) (accounting table errors rs (Targeted table keys tgs)).ended
      (replayRecord here cfg wr tgs prep rc) w := by
  have rules := accounting_rules (F := F) table errors rs (Targeted table keys tgs)
  refine wp_lift_bind (fun key hok => ?_) fun _ _ => rules.idle_failed h
  cases htg : findTarget tgs key with
  | none =>
    refine wp_bind_of (observe_spec h ?_) fun _ _ hw => hw
    rintro htar rfl
    have hs := htar key (hkey key hok) (WalHeader.ident_of_tableKey hok)
    rw [htg] at hs
    cases hs
  | some target =>
    dsimp only
    split
    · refine wp_bind_of (observe_spec h ?_) fun _ _ hw => hw
      exact fun _ _ => (by simp)
    · refine wp_bind_of (rules.getOrLoad_spec h) fun buffer w hw => ?_
      refine wp_bind_of (claimKey_spec rc.header hw) fun claimed w hw => ?_
      split
      · refine wp_bind.mpr (wp_attempt.mpr (wp_mono (fun r w hr => ?_)
          (rules.insertReplayed_spec hw)))
        simp only [andThen_ok]
        cases r with
        | error e =>
          refine wp_bind.mpr (wp_mono (fun r w hr => ?_) (abortKey_spec rc.header hr))
          cases r <;> exact hr
        | ok u =>
          refine wp_bind_of (completeKey_spec wr rc.header hr) fun _ w hw => ?_
          refine wp_bind_of (observe_spec hw fun _ _ => (by simp)) fun _ w hw => ?_
          exact rules.resolveReached_spec hw
      · refine wp_bind_of (observe_spec hw ?_) fun _ _ hw => hw
        exact fun _ _ => (by simp)

lemma replayRecords_spec (wr : WriterId) (left : Nat) (prep : List (PreparedFlush F))
    (hk : ∀ rc ∈ rs, ∀ key, rc.header.tableKey = .ok key → key ∈ keys)
    (h : (accounting table errors rs (Targeted table keys tgs)).idle w) :
    wp (.alone answers) (accounting table errors rs (Targeted table keys tgs)).ended
      (replayRecords here cfg wr tgs left prep) w := by
  have rules := accounting_rules (F := F) table errors rs (Targeted table keys tgs)
  have hre : ∀ {a w w'}, (accounting table errors rs (Targeted table keys tgs)).idle w →
      answers w .nextRecord a w' →
      (accounting (F := F) table errors rs (Targeted table keys tgs)).idle w' ∧
        ∀ rc, a = .ok (some rc) → rc ∈ rs := by
    rintro a w w' h ⟨choice, ha⟩
    obtain ⟨rfl, rfl⟩ | ⟨rfl, error, rfl⟩ := respond_nextRecord ha
    · refine ⟨⟨⟨h.1.1, fun r hr => h.1.2 (List.mem_of_mem_tail hr)⟩, h.2⟩, fun rc hr => ?_⟩
      exact h.1.2 (List.mem_of_mem_head? (Except.ok.inj hr))
    · exact ⟨h, (by simp)⟩
  induction left generalizing w prep with
  | zero =>
    refine wp_alone_request_bind.mpr fun a w' ha => ?_
    have hw' := (hre h ha).1
    exact wp_lift_bind (fun _ _ => hw') fun _ _ => rules.idle_failed hw'
  | succ left ih =>
    refine wp_alone_request_bind.mpr fun a w' ha => ?_
    obtain ⟨hw', hmem⟩ := hre h ha
    refine wp_lift_bind (fun next hn => ?_) fun _ _ => rules.idle_failed hw'
    cases next with
    | none => exact hw'
    | some rc =>
      refine wp_bind_of (replayRecord_spec wr prep
        (hk rc (hmem rc hn)) hw') fun prep w hw => ?_
      exact ih prep hw

lemma replayWal_spec (herr : ∀ e, errors e → ¬ e.Definite ∧ ¬ e.Misread)
    (its : List (PreparedFlush F)) (rs : List (WalRecord α)) :
    wp (.alone answers) (ends (fun _ w => w.Expected table errors → w.Clean table ∧ w.Loaded table)
        fun w => w.Expected table errors → w.Clean table) (replayWal here cfg) (left its rs) := by
  have hst : (accounting table errors rs True).idle (left its rs) :=
    ⟨⟨rfl, List.Subset.refl _⟩, fun _ => ⟨⟨fun _ h => absurd h List.not_mem_nil,
      List.not_mem_nil⟩, fun e => (by simp [left, lastLoad]), trivial⟩⟩
  have rules := accounting_rules (F := F) table errors rs True
  refine wp_alone_request_bind.mpr fun plan w ha => ?_
  obtain ⟨ch, ha⟩ := ha
  obtain ⟨rfl, hp⟩ := respond_prepareReplayAll ha
  refine wp_lift_bind (fun plan hok => ?_) fun _ _ => rules.idle_failed hst
  refine wp_alone_request_bind.mpr fun prep w ha => ?_
  obtain ⟨ch, ha⟩ := ha
  obtain ⟨rfl, _⟩ := respond_listPrepared ha
  refine wp_lift_bind (fun prep _ => ?_) fun _ _ => rules.idle_failed hst
  refine rules.call_bind rfl hst fun wr w hw => ?_
  refine wp_lift_bind (fun keys hk => ?_) fun _ _ => rules.idle_failed hw
  refine wp_bind_of (loadTargetMetadata_spec herr _ _ hw) fun tgs w hw => ?_
  have hw : (accounting table errors rs (Targeted table keys tgs)).idle w := by
    refine accounting_known hw fun h key hmem => h.2 key ?_
    exact (cfg.keyOrder.perm keys).mem_iff.mpr hmem
  have hrecs : ∀ rc ∈ rs, ∀ key, rc.header.tableKey = .ok key → key ∈ keys := by
    intro rc hmem key hkey
    rcases hp with heq | ⟨e, heq⟩
    · rw [heq] at hok
      cases hok
      refine (mem_of_recoveryKeys hk).mpr (Or.inl (List.mem_dedup.mpr ?_))
      exact List.mem_filterMap.mpr ⟨rc, hmem, by rw [hkey]; rfl⟩
    · rw [heq] at hok
      cases hok
  have rules := accounting_rules (F := F) table errors rs (Targeted table keys tgs)
  refine wp_bind_of (rules.observeEpochs_spec hw) fun _ w hw => ?_
  refine wp_bind_of (wp_each (fun target _ w hw => ?_) hw) fun _ w hw => ?_
  · exact wp_alone_request.mpr fun a w' ha => (rules.answered hw ha rfl).1
  refine wp_bind_of (replayRecords_spec wr.writerId _ _ hrecs hw) fun rem w hw => ?_
  refine wp_bind_of (wp_each (fun intent _ w hw => rules.resolveRemaining_spec hw) hw)
    fun _ w hw => ?_
  refine wp_bind_of (wp_each (fun other hot w hw => ?_) hw) fun _ w hw => ?_
  · refine appendDropTombstone_spec hw fun htar heq => ?_
    subst heq
    exact htar.not_mem_droppedTables ((cfg.tableOrder.perm _).mem_iff.mp hot)
  · exact rules.call_bind rfl hw fun _ w hw he => ⟨(hw.2 he).1, (hw.2 he).2.1⟩

end

end

variable (table : TableIdent)

/-- A record of the table, in the first incarnation. -/
def firstRecord : WalRecord α :=
  ⟨⟨writeProtocolVersion, some (.ofNat 1), .ofNat 2, table, 0, 1, 0, none, 0, 0, .append⟩,
    RecordBatch.newEmpty⟩

def firstKey : WalTableKey := ⟨.ofNat 1, table⟩

lemma tableKey_firstRecord :
    (firstRecord (α := α) table).header.tableKey = .ok (firstKey table) := by
  have hnil : (Uuid.ofNat 1).isNil = false := by decide
  simp [WalHeader.tableKey, WalHeader.validate, firstRecord, firstKey, hnil]

/-- The world after the failed load of the table. -/
def refused (e : LoadError) : RecoveryWorld F α :=
  { left [] [firstRecord table] with loads := [(table, .error e)] }

lemma can_load_missing (cfg : ReplayConfig F) (table : TableIdent) (wr : WriterId)
    {e : LoadError} (hpos : e.possible = true) (hmis : isNotFound e.intoTeoDB = true) :
    can answers (ends (fun targets w => targets = [] ∧ w = refused table e) fun _ => False)
      (loadTargetMetadata (F := F) (α := α) cfg wr [firstKey table])
      (left [] [firstRecord table]) := by
  refine can_request_bind (.error e.intoTeoDB) (refused table e) ⟨.load (.error e), ?_⟩ ?_
  · exact if_pos hpos
  · dsimp only
    rw [if_pos hmis]
    exact ⟨rfl, rfl⟩

variable [BEq F]

/-- The world after the record was skipped. -/
def skipped (e : LoadError) : RecoveryWorld F α :=
  { refused table e with
    unread := []
    recovery := { RecoveryState.new with outcomes := [(firstRecord table, .dropped)] } }

lemma can_skip (cfg : ReplayConfig F) (table : TableIdent) (wr : WriterId) (e : LoadError) :
    can answers (ends (fun rem w => rem = [] ∧ w = skipped table e) fun _ => False)
      (replayRecords (α := α) here cfg wr [] 1 []) (refused table e) := by
  refine can_request_bind (.ok (some (firstRecord table))) _ ⟨.read none, rfl⟩ ?_
  refine can_lift_bind rfl ?_
  refine can_bind (P := fun prep w => prep = [] ∧ w = skipped table e) ?_ ?_
  · exact can_lift_bind (tableKey_firstRecord table) ⟨rfl, rfl⟩
  · rintro _ _ ⟨rfl, rfl⟩
    refine can_request_bind (.ok none) _ ⟨.read none, rfl⟩ ?_
    exact can_lift_bind rfl ⟨rfl, rfl⟩

/-- A misread error discards the only record of a table. -/
lemma can_discard (cfg : ReplayConfig F) (table : TableIdent) {e : LoadError}
    (hpos : e.possible = true) (hmis : isNotFound e.intoTeoDB = true) :
    can answers (fun res w => res = .ok () ∧ w = { skipped table e with tombstones := [table] })
      (replayWal here cfg) (left [] [firstRecord (α := α) table]) := by
  have hp : planKeys [firstRecord (α := α) table] = [firstKey table] := by
    simp [planKeys, tableKey_firstRecord, Except.toOption]
  have hk : recoveryKeys cfg.keyOrder [firstKey table] ([] : List (PreparedFlush F)) =
      .ok [firstKey table] := rfl
  have hdro : droppedTables [firstKey table] [] = [table] := rfl
  refine can_request_bind (.ok ⟨[firstKey table], 1⟩) _ ⟨.read none, by rw [← hp]; rfl⟩ ?_
  refine can_lift_bind rfl ?_
  refine can_request_bind (.ok []) _ ⟨.read none, rfl⟩ ?_
  refine can_lift_bind rfl ?_
  refine can_request_bind ⟨⟨.ofNat 1⟩, ⟨1⟩⟩ _ ⟨.reply (.identity _), rfl⟩ ?_
  refine can_lift_bind hk ?_
  rw [HashOrder.order_singleton]
  refine can_bind (can_load_missing cfg table _ hpos hmis) ?_
  rintro _ _ ⟨rfl, rfl⟩
  refine can_bind (P := fun _ w => w = refused table e) rfl ?_
  rintro _ _ rfl
  refine can_bind (P := fun _ w => w = refused table e) rfl ?_
  rintro _ _ rfl
  refine can_bind (can_skip cfg table _ e) ?_
  rintro _ _ ⟨rfl, rfl⟩
  rw [HashOrder.order_nil, hdro, HashOrder.order_singleton]
  refine can_request_bind (.ok ()) _ ⟨.read none, rfl⟩ ?_
  refine can_request_bind (.ok 0) _ ⟨.reply (.collected (.ok 0)), rfl⟩ ?_
  exact ⟨rfl, rfl⟩

/-- A run in which the only record of a table is discarded. -/
lemma exists_discarding_run (cfg : ReplayConfig F) (table : TableIdent) {e : LoadError}
    (hmis : e.Misread) : ∃ chs res w,
      (replayWal here cfg).run respond (left [] [firstRecord (α := α) table]) chs = some (res, w) ∧
      w.Expected table (· = e) ∧ ¬ Accounted table res w := by
  have hpos : e.possible = true := by
    cases e with
    | catalog err => rfl
    | conversion err => cases hmis
  have hmiss := (LoadError.isNotFound_intoTeoDB hpos).mpr (Or.inr hmis)
  obtain ⟨chs, res, w, hrun, _, rfl⟩ :=
    exists_run_of_can (can_discard (α := α) cfg table hpos hmiss)
  refine ⟨chs, res, _, hrun, fun e' he' => ?_, fun hacc => ?_⟩
  · obtain ⟨_, heq⟩ := Prod.mk.inj (List.mem_singleton.mp he')
    exact Except.error.inj heq
  · exact hacc.tombstones (List.mem_singleton_self table)

/-- Recovery accounts for a table whose loads fail, without saying that it does not exist, exactly
if no error is an unexpected one with one of the four phrases. -/
theorem replay_keeps_records_iff (cfg : ReplayConfig F) (table : TableIdent)
    (errors : LoadError → Prop) (indefinite : ∀ e, errors e → ¬ e.Definite) :
    (∀ (intents : List (PreparedFlush F)) (records : List (WalRecord α)) choices result w,
      (replayWal here cfg).run respond (left intents records) choices = some (result, w) →
      w.Expected table errors → Accounted table result w) ↔
      ∀ e, errors e → ¬ e.Misread := by
  constructor
  · intro hacc e he hmis
    obtain ⟨choices, result, w, hrun, hexp, hnot⟩ :=
      exists_discarding_run (α := α) cfg table hmis
    exact hnot (hacc [] _ choices result w hrun fun e' he' => hexp e' he' ▸ he)
  · intro hr intents records choices result w hrun hexp
    have hs : wp (.alone answers)
        (ends (fun _ w => w.Expected table errors → w.Clean table ∧ w.Loaded table)
          fun w => w.Expected table errors → w.Clean table)
        (replayWal here cfg) (left intents records) :=
      replayWal_spec (fun e he => ⟨indefinite e he, hr e he⟩) intents records
    have hend := wp_run hs hrun
    cases result with
    | ok u =>
      obtain ⟨hcl, hld⟩ := hend hexp
      exact ⟨fun e hl => absurd hl (hld e), hcl.1, hcl.2⟩
    | error err =>
      have hcl := hend hexp
      exact ⟨fun _ _ => ⟨err, rfl⟩, hcl.1, hcl.2⟩

/-- A gateway that does not answer. -/
def gatewayTimeout : LoadError := .catalog ⟨.unexpected, false, false, "504 Gateway Timeout"⟩

theorem replay_keeps_records_gatewayTimeout : ¬ gatewayTimeout.Definite ∧
    ∀ (intents : List (PreparedFlush Unit)) (records : List (WalRecord Unit)) choices result w,
      (replayWal here plainConfig).run respond (left intents records) choices = some (result, w) →
      w.Expected eventsTable (· = gatewayTimeout) → Accounted eventsTable result w := by
  have hind : ¬ gatewayTimeout.Definite := by simp [gatewayTimeout, LoadError.Definite]
  refine ⟨hind, ?_⟩
  apply (replay_keeps_records_iff plainConfig eventsTable (· = gatewayTimeout) ?_).mpr
  · rintro e rfl ⟨_, ht⟩
    exact absurd ht (by decide)
  · rintro e rfl
    exact hind

/-- An object store without the metadata file of a table that exists. -/
def missingFile : LoadError :=
  .catalog ⟨.unexpected, false, false, "metadata file not found in the object store"⟩

/-- The text of a storage error discards the acknowledged record of a table. -/
theorem missing_file_discards_record : ¬ missingFile.Definite ∧
    ∃ choices result w, (replayWal here plainConfig).run respond
        (left [] [firstRecord (α := Unit) eventsTable]) choices = some (result, w) ∧
      w.Expected eventsTable (· = missingFile) ∧ ¬ Accounted eventsTable result w := by
  refine ⟨by simp [missingFile, LoadError.Definite], ?_⟩
  exact exists_discarding_run plainConfig eventsTable ⟨rfl, by decide⟩

end RecoveryWorld

end TeoDB.Ingest.Replay

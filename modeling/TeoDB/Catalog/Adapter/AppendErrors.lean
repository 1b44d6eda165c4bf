import TeoDB.Catalog.Adapter

/-!
# The errors of an append

A call of `commit_append` that fails with another error than an unknown commit state has published
nothing, and nothing that it has sent can be published later. Two things break this: the conversion
of the metadata that the catalog returns for the published update can fail, and the transaction
retries an ambiguous error that is marked as retryable, so that a later error is reported for the
call.

## Implementation notes

The catalog may replace the table in any way at any time. `Clean` is the whole invariant of a task
before its first ambiguous error.
-/

namespace TeoDB.Catalog.Adapter

open TeoDB.Core Lib Async

section

variable {F L P : Type}

/-- No update of the task is on its way or applied. -/
def Clean (task : Nat) (s : CatalogState F L) : Prop :=
  (∀ sent ∈ s.wire, sent.task ≠ task) ∧ ∀ entry ∈ s.log, entry.task ≠ task

/-- An error that says that the outcome is unknown. -/
def IsStateUnknown : TeoDBError → Prop
  | .commitStateUnknown _ _ _ => True
  | _ => False

variable (env : AdapterEnv F L P) (ident : TableIdent)

/-- The metadata that answers an append converts, and its ambiguous errors are not marked as
retryable. -/
def TruthfulAnswer (request : CommitAppend F) (s : CatalogState F L) (choice : Choice L) : Prop :=
  match choice with
  | .succeeds => ∀ t ∈ s.table, env.icebergToTeoMetadata request.table t.layout = .ok ()
  | .fails error => IsAmbiguous error → error.retryable = false
  | _ => True

instance (request : CommitAppend F) (s : CatalogState F L) (choice : Choice L) :
    Decidable (TruthfulAnswer env request s choice) :=
  match choice with
  | .succeeds => inferInstanceAs (Decidable (∀ t ∈ s.table, _))
  | .fails _ => inferInstanceAs (Decidable (_ → _))
  | .snapshotId _ | .clock _ | .deliver _ | .external _ => .isTrue trivial

/-- The request of an append that waits for the answer to its update. -/
def updatingAppend (cfg : Cluster.Config (interface F L) (CatalogState F L) TeoDBError
    TableMetadata (Program F)) (task : Nat) : Option (CommitAppend F) :=
  match cfg.tasks[task]? with
  | some ⟨.append request _, .call (.updateTable _ _) _⟩ => some request
  | _ => none

/-- The condition on the answers to updates of appends. -/
def Truthful (cfg : Cluster.Config (interface F L) (CatalogState F L) TeoDBError TableMetadata
    (Program F)) : Cluster.Turn (Program F) (Choice L) → Prop
  | .answer task choice =>
    ∀ request ∈ updatingAppend cfg task, TruthfulAnswer env request cfg.state choice
  | _ => True

instance (cfg : Cluster.Config (interface F L) (CatalogState F L) TeoDBError TableMetadata
    (Program F)) (turn : Cluster.Turn (Program F) (Choice L)) : Decidable (Truthful env cfg turn) :=
  match turn with
  | .answer task _ => inferInstanceAs (Decidable (∀ request ∈ updatingAppend cfg task, _))
  | .spawn _ | .interfere _ => .isTrue trivial

/-- The answers that an append gets under the condition. -/
def AppendAnswers (request : CommitAppend F) (s : CatalogState F L) :
    (c : CatalogCall F) → CatalogAnswer F L c → CatalogState F L → Prop
  | .updateTable _ _, .ok table, _ => env.icebergToTeoMetadata request.table table.layout = .ok ()
  | .updateTable _ _, .error error, s' =>
    s' = s ∨ IsAmbiguous error ∧ error.retryable = false
  | _, _, s' => s' = s

/-- The setting of a task: others keep it clean. -/
def appendSetting (task : Nat) : Program F → Setting (interface F L) (CatalogState F L)
  | .append request _ => ⟨fun _ _ => True, fun s s' => Clean task s → Clean task s',
      AppendAnswers env request⟩
  | _ => ⟨fun _ _ => True, fun s s' => Clean task s → Clean task s', fun _ _ _ _ => True⟩

/-- What the result of an append means. -/
def AppendResult (task : Nat) : Program F → Except TeoDBError TableMetadata →
    CatalogState F L → Prop
  | .append _ _, .error error, s => IsStateUnknown error ∨ Clean task s
  | _, _, _ => True

variable {env ident} {task : Nat} {s s' : CatalogState F L} {request : CommitAppend F}
  {retries : Nat}

lemma clean_stable : (appendSetting env task (.append request retries)).Stable
    (Clean (L := L) task) :=
  fun _ _ hs hss' => hss' hs

/-- How an attempt ends: published, clean, or with an ambiguous error that ends the transaction. -/
def AttemptEnds (env : AdapterEnv F L P) (request : CommitAppend F) (task : Nat) :
    Except (AttemptError L) (CatalogTable L) → CatalogState F L → Prop
  | .ok table, _ => env.icebergToTeoMetadata request.table table.layout = .ok ()
  | .error failure, s => Clean task s ∨ failure.rejection = none ∧
      IsAmbiguous failure.error ∧ failure.error.retryable = false

lemma doCommit_ends (tx : AppendTransaction) (h : Clean task s) :
    wp (appendSetting env task (.append request retries)) (AttemptEnds env request task)
      (appendTransaction env request tx).doCommit s := by
  refine wp_bind.mpr (wp_mapErr.mpr (wp_call_of clean_stable h ?_))
  rintro s hs
  refine ⟨trivial, ?_⟩
  rintro ld _ rfl
  cases ld with
  | error e => exact Or.inl hs
  | ok tb =>
    refine wp_lift_bind (fun _ _ => ?_) fun _ _ => Or.inl hs
    refine wp_bind.mpr (wp_mapErr.mpr (wp_call_of clean_stable hs ?_))
    rintro s hs
    refine ⟨trivial, ?_⟩
    rintro prep _ rfl
    cases prep with
    | error e => exact Or.inl hs
    | ok sid =>
      refine wp_mapErr.mpr (wp_call_of clean_stable hs ?_)
      rintro s hs
      refine ⟨trivial, ?_⟩
      rintro updated s' han
      cases updated with
      | ok tb => exact han
      | error e =>
        obtain rfl | hamb := han
        · exact Or.inl hs
        · exact Or.inr ⟨rfl, hamb⟩

/-- Retries start clean. -/
lemma commit_ends (tx : AppendTransaction) (h : Clean task s) (n : Nat) :
    wp (appendSetting env task (.append request retries)) (AttemptEnds env request task)
      ((appendTransaction env request tx).commit n) s := by
  induction n generalizing s with
  | zero => exact doCommit_ends tx h
  | succ n ih =>
    refine wp_bind.mpr (wp_attempt.mpr (wp_mono ?_ (doCommit_ends tx h)))
    rintro res s he
    cases res with
    | ok table => exact he
    | error fl =>
      by_cases hret : fl.error.retryable = true
      · obtain hcl | ⟨_, _, hfinal⟩ := he
        · simpa [andThen, hret] using ih hcl
        · rw [hfinal] at hret
          cases hret
      · simpa [andThen, hret] using he

/-- An ambiguous error of the transaction is reported as an unknown state. -/
lemma appendResult_ambiguous {fl : AttemptError L} {layout : L}
    (hrej : fl.rejection = none) (h : IsAmbiguous fl.error) :
    appendResult env request layout (.error fl) = .error
      (.commitStateUnknown request.table request.identity.commitId fl.error.text) := by
  simp [appendResult, hrej, guardResult, classify, h.1, h.2, Except.map]

/-- How the transaction of a call ends, in the errors of the adapter. -/
def CallEnds (env : AdapterEnv F L P) (request : CommitAppend F) (task : Nat) :
    Except TeoDBError (CatalogTable L) → CatalogState F L → Prop
  | .ok table, s => env.icebergToTeoMetadata request.table table.layout = .ok () ∨ Clean task s
  | .error error, s => IsStateUnknown error ∨ Clean task s

lemma appendResult_ends {layout : L} {res : Except (AttemptError L) (CatalogTable L)}
    (h : AttemptEnds env request task res s) :
    CallEnds env request task (appendResult env request layout res) s := by
  cases res with
  | ok tb => exact Or.inl h
  | error fl =>
    obtain hcl | ⟨hrej, hamb, _⟩ := h
    · cases appendResult env request layout (.error fl) with
      | ok tb => exact Or.inr hcl
      | error e => exact Or.inr hcl
    · rw [appendResult_ambiguous hrej hamb]
      exact Or.inl trivial

lemma tryCommitAppend_ends (h : Clean task s) :
    wp (appendSetting env task (.append request retries)) (CallEnds env request task)
      (tryCommitAppend env request retries) s := by
  refine wp_bind.mpr (wp_mapErr.mpr (wp_call_of clean_stable h ?_))
  intro s hs
  refine ⟨trivial, ?_⟩
  rintro ld _ rfl
  cases ld with
  | error e => exact Or.inr hs
  | ok table =>
    refine wp_request_bind_of clean_stable hs fun s hs => ⟨trivial, ?_⟩
    rintro now _ rfl
    refine wp_lift_bind (fun tx _ => ?_) fun _ _ => Or.inr hs
    refine wp_bind.mpr (wp_attempt.mpr (wp_mono ?_ (commit_ends tx hs retries)))
    exact fun result s he => appendResult_ends he

lemma commitAppend_result (h : Clean task s) :
    wp (appendSetting env task (.append request retries))
      (AppendResult task (.append request retries)) (commitAppend env request retries) s := by
  refine wp_bind.mpr (wp_mono ?_ (tryCommitAppend_ends h))
  intro res s he
  cases res with
  | error e => exact he
  | ok tbl =>
    obtain hdom | hcl := he
    · simp [andThen, domainMetadata, hdom, Except.map, AppendResult]
    · cases hdom : domainMetadata env request.table tbl with
      | ok md => simp [andThen, hdom, AppendResult]
      | error e => simpa [andThen, hdom, AppendResult] using Or.inr hcl

lemma clean_apply {sent : Sent F} {t' : CatalogTable L} {j : Nat} (hne : sent.task ≠ j)
    (h : s.apply sent = some (t', s')) (hcl : Clean j s) : Clean j s' := by
  obtain ⟨t, _, _, _, rfl⟩ := CatalogState.apply_eq_some h
  refine ⟨hcl.1, fun en hen => ?_⟩
  rcases mem_concat_iff.mp hen with hold | rfl
  · exact hcl.2 en hold
  · exact hne

lemma clean_answer {ch : Choice L} {i j : Nat} {c : CatalogCall F}
    {a : CatalogAnswer F L c} (hij : j ≠ i) (h : answer ch i s c = some (a, s'))
    (hcl : Clean j s) : Clean j s' := by
  obtain rfl | ⟨pp, update, rfl, rfl | ⟨_, t', hap⟩⟩ := answer_state h
  · exact hcl
  · refine ⟨fun sent hs => ?_, hcl.2⟩
    rcases mem_concat_iff.mp hs with hold | rfl
    · exact hcl.1 sent hold
    · exact hij.symm
  · exact clean_apply hij.symm hap hcl

lemma clean_deliver {ch : Choice L} {j : Nat} (h : deliverOrReplace ch s = some s')
    (hcl : Clean j s) : Clean j s' := by
  have hdel : ∀ h : deliver ch s = some s', Clean j s' := by
    intro h
    obtain ⟨message, sent, t', _, hs, hap⟩ := deliver_eq_some h
    exact clean_apply (hcl.1 sent (List.mem_of_getElem? hs)) hap hcl
  cases ch with
  | external table =>
    cases h
    exact hcl
  | _ => exact hdel h

/-- The answers to the calls of an append are those of its setting. -/
lemma appendAnswers_of_answer {ch : Choice L} {i : Nat} {c : CatalogCall F}
    {a : CatalogAnswer F L c} (h : answer ch i s c = some (a, s'))
    (hg : ∀ pp upd, c = .updateTable pp upd → TruthfulAnswer env request s ch) :
    AppendAnswers env request s c a s' := by
  cases c with
  | updateTable pp upd =>
    have htru := hg pp upd rfl
    cases ch with
    | succeeds =>
      obtain ⟨⟨t', s''⟩, hap, heq⟩ := Option.map_eq_some_iff.mp h
      obtain ⟨rfl, rfl⟩ := Prod.mk.inj heq
      obtain ⟨t, ht, _, rfl, _⟩ := CatalogState.apply_eq_some hap
      exact htru t ht
    | fails e =>
      cases h
      by_cases hamb : IsAmbiguous e
      · exact Or.inr ⟨hamb, htru hamb⟩
      · exact Or.inl (if_neg hamb)
    | _ => cases h
  | _ =>
    obtain heq | ⟨_, _, hc, _⟩ := answer_state h
    · exact heq
    · cases hc

lemma appendErrors_sound : (openAdapter env ident).Sound (Truthful env)
    (fun n s => ∀ i, n ≤ i → Clean i s) (appendSetting env) AppendResult where
  start := by
    rintro s ⟨_, hw, hlog⟩ i _
    simp [Clean, hw, hlog]
  refl i p s := by cases p <;> exact id
  trans i p a b c hab hbc := by cases p <;> exact fun ha => hbc (hab ha)
  stable i p r s s' hr hss' := by
    cases p with
    | append request retries =>
      cases r with
      | ok md => trivial
      | error e => exact hr.imp_right hss'
    | _ => trivial
  spawn i p s hs := by
    refine ⟨fun j hj => hs j (Nat.le_of_succ_le hj), ?_⟩
    cases p with
    | append request retries => exact commitAppend_result (hs i le_rfl)
    | _ => exact wp_of_visible (fun _ _ => trivial) fun _ _ => trivial
  answer cfg i p c k ch a s' hg hinv ht _ ha := by
    have hlt : i < cfg.tasks.length := (List.getElem?_eq_some_iff.mp ht).1
    refine ⟨fun j hj => clean_answer (by omega) ha (hinv j hj), ?_, ?_⟩
    · cases p with
      | append request retries =>
        apply appendAnswers_of_answer ha
        rintro pp update rfl
        exact hg request (by simp [updatingAppend, ht])
      | _ => trivial
    · rintro j ⟨q, _⟩ hne _
      cases q <;> exact clean_answer hne ha
  interfere cfg ch s' _ hinv hs' := by
    refine ⟨fun i hi => clean_deliver hs' (hinv i hi), ?_⟩
    rintro j ⟨q, _⟩ _
    cases q <;> exact clean_deliver hs'

/-- When answers meet the condition, a call that ends with another error than an unknown commit
state never publishes anything. -/
theorem commitAppend_errors_truthful (env : AdapterEnv F L P) (ident : TableIdent)
    {cfg : Cluster.Config (interface F L) (CatalogState F L) TeoDBError TableMetadata (Program F)}
    (run : (openAdapter env ident).machine.ReachableIf (Truthful env) cfg) {task : Nat}
    {request : CommitAppend F} {retries : Nat} {error : TeoDBError}
    (hresult : cfg.result task = some (.append request retries, .error error))
    (hknown : ¬ IsStateUnknown error) : ∀ entry ∈ cfg.state.log, entry.task ≠ task := by
  obtain hunk | hcl := (appendErrors_sound.safe run).result hresult
  · exact absurd hunk hknown
  · exact hcl.2

end

/-- The table without snapshots under the name. -/
def newOrders {L : Type} (layout : L) : CatalogState Unit L where
  table := some ⟨⟨Uuid.ofNat 7, none, 0, [], OrdMap.empty⟩, layout⟩
  wire := []
  log := []

lemma newOrders_start {L : Type} (env : AdapterEnv Unit L Unit) (ident : TableIdent)
    (layout : L) : (openAdapter env ident).machine.start ⟨newOrders layout, []⟩ :=
  ⟨⟨by rintro t ⟨⟩ k ⟨⟩, rfl, rfl⟩, rfl⟩

def gatewayTimeout : IcebergError := ⟨.unexpected, true, false, "gateway timeout"⟩

def connectionRefused : IcebergError := ⟨.unexpected, false, true, "connection refused"⟩

def commitConflict : IcebergError := ⟨.catalogCommitConflicts, false, false, "main has moved"⟩

/-- The answers to a call of an append up to its update. -/
def upToUpdate (task : Nat) (snapshotId : Int) {L : Type} :
    List (Cluster.Turn (Program Unit) (Choice L)) :=
  [.answer task .succeeds, .answer task (.clock 1000), .answer task .succeeds,
    .answer task (.snapshotId snapshotId)]

/-- The error of an append that has failed. -/
def failedAppend {F L : Type} (cfg : Cluster.Config (interface F L) (CatalogState F L) TeoDBError
    TableMetadata (Program F)) (task : Nat) : Option TeoDBError :=
  match cfg.result task with
  | some (.append _ _, .error error) => some error
  | _ => none

lemma result_of_failedAppend {F L : Type} {cfg : Cluster.Config (interface F L)
    (CatalogState F L) TeoDBError TableMetadata (Program F)} {task : Nat} {e : TeoDBError}
    (h : failedAppend cfg task = some e) :
    ∃ request retries, cfg.result task = some (.append request retries, .error e) := by
  unfold failedAppend at h
  split at h
  · rename_i request retries _ hres
    cases h
    exact ⟨request, retries, hres⟩
  · cases h

/-- What is observed of a run: the error of the first task, and the tasks of the applied
updates. -/
def observed {L : Type} (cfg : Cluster.Config (interface Unit L) (CatalogState Unit L) TeoDBError
    TableMetadata (Program Unit)) : Option TeoDBError × List Nat :=
  (failedAppend cfg 0, cfg.state.log.map Applied.task)

/-- Another writer publishes between the reload and the update of a call. -/
def overtaken : List (Cluster.Turn (Program Unit) (Choice Unit)) :=
  .spawn (.append (buildCommitRequest ordersFlush) 0) :: upToUpdate 0 42 ++
    .spawn (.append otherAppend 0) :: upToUpdate 1 43 ++
    [.answer 1 .succeeds, .answer 0 (.fails commitConflict)]

/-- The call that was overtaken fails with a conflict and has published nothing. -/
theorem commitAppend_errors_truthful_overtaken :
    ∃ cfg, (openAdapter plainAdapter ordersTable).machine.ReachableIf (Truthful plainAdapter) cfg ∧
      failedAppend cfg 0 = some (.conflict "main has moved" "" "<concurrent change>") ∧
      cfg.state.log.length = 1 ∧ ∀ entry ∈ cfg.state.log, entry.task ≠ 0 := by
  have hrun : (((openAdapter plainAdapter ordersTable).machine.guarded (Truthful plainAdapter)).exec
      ⟨newOrders (), []⟩ overtaken).map observed =
      some (some (.conflict "main has moved" "" "<concurrent change>"), [1]) := by
    decide +kernel
  obtain ⟨cfg, hrch, hobs⟩ :=
    Machine.existsIf_of_exec (newOrders_start _ _ _) hrun
  obtain ⟨hfl, hlog⟩ := Prod.mk.inj hobs
  obtain ⟨request, retries, hres⟩ := result_of_failedAppend hfl
  have hlen : cfg.state.log.length = 1 := by simpa using congrArg List.length hlog
  exact ⟨cfg, hrch, hfl, hlen,
    commitAppend_errors_truthful plainAdapter ordersTable hrch hres fun h => h⟩

/-- The answer to the published update is lost, and the catalog cannot be reached for the retry. -/
def lostAndRetried : List (Cluster.Turn (Program Unit) (Choice Unit)) :=
  .spawn (.append (buildCommitRequest ordersFlush) 1) :: upToUpdate 0 42 ++
    [.answer 0 (.fails gatewayTimeout), .interfere (.deliver 0),
      .answer 0 (.fails connectionRefused)]

/-- An adapter that reads the identifier of the default sort order. -/
def sortOrderAdapter : AdapterEnv Unit Int Unit where
  codec := PlainText.codec
  maxWriterCheckpointsPerTable := 8
  partitionSpecId _ := 0
  partitionSpecById _ _ := some ()
  teodbDataFileToIceberg _ _ := .ok ()
  icebergToTeoMetadata _ sortOrderId :=
    if sortOrderId < 2 ^ 31 then .ok () else .error (.catalog "Iceberg sort order id exceeds i32")
  removedToJson _ := "[]"

/-- The sort order changes between the reload and the update. -/
def unreadableAnswer : List (Cluster.Turn (Program Unit) (Choice Int)) :=
  .spawn (.append (buildCommitRequest ordersFlush) 1) :: upToUpdate 0 42 ++
    [.interfere (.external (newOrders (2 ^ 31)).table), .answer 0 .succeeds]

/-- Two appends that are published although their calls fail with definite errors. -/
theorem commitAppend_error_after_publication :
    (∃ cfg, (openAdapter plainAdapter ordersTable).machine.Reachable cfg ∧
      failedAppend cfg 0 = some (.externalRetryable "connection refused") ∧
      ∃ entry ∈ cfg.state.log, entry.task = 0) ∧
    ∃ cfg, (openAdapter sortOrderAdapter ordersTable).machine.Reachable cfg ∧
      failedAppend cfg 0 = some (.catalog "Iceberg sort order id exceeds i32") ∧
      ∃ entry ∈ cfg.state.log, entry.task = 0 := by
  have hret : ((openAdapter plainAdapter ordersTable).machine.exec ⟨newOrders (), []⟩
      lostAndRetried).map observed =
        some (some (.externalRetryable "connection refused"), [0]) := by
    decide +kernel
  have hunr : ((openAdapter sortOrderAdapter ordersTable).machine.exec ⟨newOrders 0, []⟩
      unreadableAnswer).map observed =
      some (some (.catalog "Iceberg sort order id exceeds i32"), [0]) := by
    decide +kernel
  obtain ⟨cfg, hreach, hobs⟩ :=
    Machine.exists_of_exec (newOrders_start _ _ _) hret
  obtain ⟨cfg', hreach', hobs'⟩ :=
    Machine.exists_of_exec (newOrders_start _ _ _) hunr
  obtain ⟨hfl, hlog⟩ := Prod.mk.inj hobs
  obtain ⟨hfl', hlog'⟩ := Prod.mk.inj hobs'
  refine ⟨⟨cfg, hreach, hfl, ?_⟩, cfg', hreach', hfl', ?_⟩
  · exact List.mem_map.mp (hlog ▸ List.mem_singleton_self 0)
  · exact List.mem_map.mp (hlog' ▸ List.mem_singleton_self 0)

end TeoDB.Catalog.Adapter

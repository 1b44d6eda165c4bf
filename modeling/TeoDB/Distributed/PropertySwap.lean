import TeoDB.Distributed.Coordination

/-!
# Property updates as compare-and-swap

An update of table properties names the values that it expects and checks them on a load of its
own. The update that its transaction sends later requires nothing. When the expected values still
hold at each application, the updates are compare-and-swap operations, and two nodes get a free
lock only if it was freed in between.

## Implementation notes

The invariant is on the history of applied updates: each one starts from the properties that the
one before has left (`linked`).
-/

namespace TeoDB.Distributed

open TeoDB.Core Lib Catalog Catalog.Adapter Async

section

variable {F L P : Type}

/-- The current values are those expected. -/
def MatchesExpected (expected properties : Properties) : Prop :=
  ∀ e ∈ expected.entries, currentValue properties e.1 = e.2

instance (expected properties : Properties) : Decidable (MatchesExpected expected properties) :=
  inferInstanceAs (Decidable (∀ e ∈ expected.entries, _))

/-- The properties after an update. -/
def PropertiesRequest.applied (request : PropertiesRequest) (properties : Properties) :
    Properties :=
  request.removals.foldl OrdMap.erase (properties.insertAll request.updates.entries)

/-- An update carries what its request asks for. -/
def Carries : Purpose F → TableCommit → Prop
  | .properties request, update =>
    update.updates = request.updates.entries ∧ update.removals = request.removals
  | _, _ => True

/-- An update found the values that it expects. -/
def Swapped (entry : Applied F) : Prop :=
  ∀ request, entry.purpose = .properties request →
    MatchesExpected request.expected entry.before.properties ∧
    entry.after.properties = PropertiesRequest.applied request entry.before.properties

structure SwapInv (s : CatalogState F L) : Prop where
  linked : s.log.IsChain fun a b => a.after.properties = b.before.properties
  last : ∀ entry ∈ s.log.getLast?, ∀ t ∈ s.table, entry.after.properties = t.metadata.properties
  swapped : ∀ entry ∈ s.log, Swapped entry
  wire : ∀ sent ∈ s.wire, Carries sent.purpose sent.update

/-- The expectations of an update hold now. -/
def ExpectedNow (s : CatalogState F L) : Purpose F → Prop
  | .properties request => ∀ t ∈ s.table, MatchesExpected request.expected t.metadata.properties
  | _ => True

instance (s : CatalogState F L) (purpose : Purpose F) : Decidable (ExpectedNow s purpose) :=
  match purpose with
  | .properties _ => inferInstanceAs (Decidable (∀ t ∈ s.table, _))
  | .append _ | .replace _ => .isTrue trivial

/-- What the update is for that a task waits for. -/
def updatingPurpose {ε R Q : Type} (cfg : Cluster.Config (interface F L) (CatalogState F L) ε R Q)
    (task : Nat) : Option (Purpose F) :=
  match cfg.pending task with
  | some (.updateTable purpose _) => some purpose
  | _ => none

/-- An update is applied only while its expectations hold. -/
def StillExpected {ε R Q : Type} (cfg : Cluster.Config (interface F L) (CatalogState F L) ε R Q) :
    Cluster.Turn Q (Choice L) → Prop
  | .answer task .succeeds => ∀ purpose ∈ updatingPurpose cfg task, ExpectedNow cfg.state purpose
  | .interfere (.deliver message) =>
    ∀ sent ∈ cfg.state.wire[message]?, ExpectedNow cfg.state sent.purpose
  | _ => True

instance {ε R Q : Type} (cfg : Cluster.Config (interface F L) (CatalogState F L) ε R Q)
    (turn : Cluster.Turn Q (Choice L)) : Decidable (StillExpected cfg turn) :=
  match turn with
  | .answer task .succeeds =>
    inferInstanceAs (Decidable (∀ purpose ∈ updatingPurpose cfg task, _))
  | .interfere (.deliver message) =>
    inferInstanceAs (Decidable (∀ sent ∈ cfg.state.wire[message]?, _))
  | .spawn _ | .answer _ (.fails _) | .answer _ (.snapshotId _) | .answer _ (.clock _)
  | .answer _ (.deliver _) | .answer _ (.external _) | .interfere .succeeds
  | .interfere (.fails _) | .interfere (.snapshotId _) | .interfere (.clock _)
  | .interfere (.external _) => .isTrue trivial

variable {s s' : CatalogState F L}

lemma SwapInv.apply (h : SwapInv s) (sent : Sent F) {t' : CatalogTable L}
    (hcar : Carries sent.purpose sent.update) (hexp : ExpectedNow s sent.purpose)
    (hap : s.apply sent = some (t', s')) : SwapInv s' := by
  obtain ⟨t, ht, _, rfl, rfl⟩ := CatalogState.apply_eq_some hap
  constructor
  · refine List.isChain_append.mpr ⟨h.linked, List.isChain_singleton _, ?_⟩
    rintro en hl _ ⟨⟩
    exact h.last en hl t ht
  · intro en hen t' ht'
    simp only [List.getLast?_append, List.getLast?_singleton, Option.some_or, Option.mem_def,
      Option.some.injEq] at hen ht'
    rw [← hen, ← ht']
  · intro en hen
    rcases mem_concat_iff.mp hen with hold | rfl
    · exact h.swapped en hold
    · intro rq hpur
      simp only at hpur
      rw [hpur] at hcar hexp
      refine ⟨hexp t ht, ?_⟩
      simp only [TableCommit.applied, hcar.1, hcar.2, PropertiesRequest.applied]
  · exact h.wire

lemma SwapInv.send (h : SwapInv s) {task : Nat} {purpose : Purpose F} {upd : TableCommit}
    (hcar : Carries purpose upd) :
    SwapInv { s with wire := s.wire ++ [⟨task, purpose, upd⟩] } where
  linked := h.linked
  last := h.last
  swapped := h.swapped
  wire := by
    intro sent hs
    rcases mem_concat_iff.mp hs with hold | rfl
    · exact h.wire sent hold
    · exact hcar

/-- The task has had an update of this purpose applied. -/
def Logged (task : Nat) (purpose : Purpose F) (s : CatalogState F L) : Prop :=
  ∃ entry ∈ s.log, entry.task = task ∧ entry.purpose = purpose

def SwapVisible (_s : CatalogState F L) : (interface F L).Event → Prop
  | .call (.updateTable purpose update) => Carries purpose update
  | _ => True

def SwapAnswers (task : Nat) (_s : CatalogState F L) :
    (c : CatalogCall F) → CatalogAnswer F L c → CatalogState F L → Prop
  | .updateTable purpose _, .ok _, s' => Logged task purpose s'
  | _, _, _ => True

/-- The setting of a task: the history only grows. -/
def swapSetting (task : Nat) : Setting (interface F L) (CatalogState F L) where
  visible := SwapVisible
  interferes s s' := s.log <+: s'.log
  answers := SwapAnswers task

variable {task : Nat} {purpose : Purpose F}

lemma logged_stable : (swapSetting task : Setting (interface F L) _).Stable
    (Logged task purpose) := by
  rintro s s' ⟨en, hen, ht⟩ hss'
  exact ⟨en, hss'.subset hen, ht⟩

lemma onlyUpdates_swapSetting : OnlyUpdates (swapSetting task : Setting (interface F L) _) :=
  ⟨fun _ => trivial, fun _ => trivial⟩

/-- The postcondition of a program whose success means that an update was applied. -/
abbrev SucceedsLogged {ε α : Type} (task : Nat) (purpose : Purpose F) :
    Except ε α → CatalogState F L → Prop :=
  ends (fun _ s => Logged task purpose s) fun _ => True

lemma doCommit_logged {tx : Transaction F L}
    (h : ∀ base id, Carries tx.purpose (tx.update base id)) :
    wp (swapSetting task) (SucceedsLogged task tx.purpose) tx.doCommit s := by
  have hany : (swapSetting task : Setting (interface F L) (CatalogState F L)).Stable
      fun _ => True := fun _ _ _ _ => trivial
  refine wp_bind.mpr (wp_mapErr.mpr (wp_call_of hany trivial fun s _ => ⟨trivial, ?_⟩))
  intro ld s _
  cases ld with
  | error e => trivial
  | ok tb =>
    refine wp_lift_bind (fun _ _ => ?_) fun _ _ => trivial
    refine wp_bind.mpr (wp_mapErr.mpr (wp_call_of hany trivial fun s _ => ⟨trivial, ?_⟩))
    intro prep s _
    cases prep with
    | error e => trivial
    | ok sid =>
      refine wp_mapErr.mpr (wp_call_of hany trivial fun s _ => ⟨h _ _, ?_⟩)
      intro updated s' han
      cases updated with
      | ok tb => exact han
      | error e => trivial

lemma commit_logged (tx : Transaction F L) (h : ∀ base id, Carries tx.purpose (tx.update base id))
    (retries : Nat) :
    wp (swapSetting task) (SucceedsLogged task tx.purpose) (tx.commit retries) s := by
  induction retries generalizing s with
  | zero => exact doCommit_logged h
  | succ retries ih =>
    refine wp_bind.mpr (wp_attempt.mpr (wp_mono ?_ (doCommit_logged h)))
    intro res s he
    cases res with
    | ok table => exact he
    | error fl =>
      by_cases hret : fl.error.retryable = true
      · simpa [andThen, hret] using ih
      · simp [andThen, hret, ends]

variable {env : AdapterEnv F L P} {ident : TableIdent} {tries : Nat}

lemma updateTableProperties_logged (req : PropertiesRequest) :
    wp (swapSetting task) (SucceedsLogged task (.properties req))
      (updateTableProperties env ident req tries) s := by
  refine wp_bind.mpr (wp_mono ?_ (shows_loadIcebergTable onlyUpdates_swapSetting s))
  intro ld s _
  cases ld with
  | error e => trivial
  | ok tbl =>
    refine wp_lift_bind (fun _ _ => ?_) fun _ _ => trivial
    refine wp_bind.mpr (wp_mapErr.mpr (wp_mono ?_
      (commit_logged (propertiesTransaction req) (fun _ _ => ⟨rfl, rfl⟩) tries)))
    intro updated s he
    cases updated with
    | error fl => trivial
    | ok tbl =>
      have hlog : Logged task (.properties req) s := he
      cases hdom : domainMetadata env ident tbl with
      | ok md => simpa [andThen, Except.mapError, hdom, ends] using hlog
      | error e => simp [andThen, Except.mapError, hdom, ends]

lemma shows_updateTableProperties (req : PropertiesRequest) :
    Shows (swapSetting task) (updateTableProperties env ident req tries) :=
  fun _ => wp_mono (fun _ _ _ => trivial) (updateTableProperties_logged req)

lemma shows_loadTable : Shows (swapSetting task) (loadTable env ident) :=
  (shows_loadIcebergTable onlyUpdates_swapSetting).bind fun _ =>
    shows_lift.bind fun _ => shows_lift

/-- The task has taken the lock, from some owner and time. -/
def Taken (task : Nat) (lock : CompactionLock) (s : CatalogState F L) : Prop :=
  ∃ owner lockTs nowMs, Logged task (.properties (lock.takeRequest owner lockTs nowMs)) s

/-- The postcondition of the programs that acquire. -/
abbrev AcquiredTaken (task : Nat) (lock : CompactionLock) :
    Except TeoDBError LockOutcome → CatalogState F L → Prop :=
  ends (fun outcome s => outcome = .acquired → Taken task lock s) fun _ => True

variable {lock : CompactionLock}

lemma refreshLock_taken {owner : String} {lockTs nowMs : Nat} :
    wp (swapSetting task) (AcquiredTaken task lock)
      (lock.refreshLock env ident tries owner lockTs nowMs) s := by
  refine wp_bind.mpr (wp_attempt.mpr (wp_mono ?_ (updateTableProperties_logged _)))
  intro updated s he
  cases updated with
  | ok md => exact fun _ => ⟨owner, toString lockTs, nowMs, he⟩
  | error e => cases e <;> exact fun h => by cases h

lemma reportWinner_taken : wp (swapSetting task) (AcquiredTaken task lock)
      (CompactionLock.reportWinner env ident : Prog F L TeoDBError LockOutcome) s := by
  refine wp_bind.mpr (wp_attempt.mpr (wp_mono ?_ (shows_loadTable s)))
  intro ld s _
  cases ld <;> exact fun h => by cases h

lemma acquireFree_taken {owner : String} {lockTs nowMs : Nat} :
    wp (swapSetting task) (AcquiredTaken task lock)
      (lock.acquireFree env ident tries owner lockTs nowMs) s := by
  refine wp_bind.mpr (wp_attempt.mpr (wp_mono ?_ (updateTableProperties_logged _)))
  intro updated s he
  cases updated with
  | ok md =>
    intro _
    have hlog : Logged task (.properties (lock.acquireRequest owner lockTs nowMs)) s := he
    unfold CompactionLock.acquireRequest at hlog
    split_ifs at hlog
    · exact ⟨"", "", nowMs, hlog⟩
    · exact ⟨owner, toString lockTs, nowMs, hlog⟩
  | error e =>
    cases e with
    | conflict rsc ex actual => exact reportWinner_taken
    | _ => exact fun h => by cases h

lemma tryAcquire_taken :
    wp (swapSetting task) (AcquiredTaken task lock) (lock.tryAcquire env ident tries) s := by
  refine wp_bind.mpr (wp_mono ?_ (shows_request onlyUpdates_swapSetting.nowMs s))
  intro now s _
  cases now with
  | error e => trivial
  | ok now =>
    refine wp_bind.mpr (wp_attempt.mpr (wp_mono ?_ (shows_loadTable s)))
    intro ld s _
    cases ld with
    | error e => exact fun h => by cases h
    | ok md =>
      show wp _ _ (lock.acquireFrom env ident tries md.properties _) s
      unfold CompactionLock.acquireFrom
      dsimp only
      split_ifs
      · exact refreshLock_taken
      · exact fun h => by cases h
      · exact acquireFree_taken

lemma shows_release : Shows (swapSetting task) (lock.release env ident tries) := by
  refine shows_loadTable.attempt.bind fun ld => ?_
  cases ld with
  | error e => exact shows_lift
  | ok md =>
    show Shows _ (lock.releaseFrom env ident tries md.properties)
    unfold CompactionLock.releaseFrom
    split_ifs
    · exact (shows_updateTableProperties _).attempt.bind fun _ => shows_lift
    · exact shows_lift

lemma shows_casSet {key v : String} (again : Nat) :
    Shows (swapSetting task) (casSet env ident tries key v again) := by
  induction again with
  | zero =>
    exact shows_loadTable.bind fun _ => (shows_updateTableProperties _).bind fun _ => shows_lift
  | succ again ih =>
    refine shows_loadTable.bind fun md =>
      (shows_updateTableProperties _).attempt.bind fun updated => ?_
    cases updated with
    | ok md => exact shows_lift
    | error e =>
      cases e with
      | conflict rsc ex actual => exact ih
      | _ => exact shows_throw

lemma shows_casRemove {keys : List String} (again : Nat) :
    Shows (swapSetting task) (casRemove env ident tries keys again) := by
  induction again with
  | zero =>
    refine shows_loadTable.bind fun md => ?_
    split_ifs
    · exact shows_lift
    · exact (shows_updateTableProperties _).bind fun _ => shows_lift
  | succ again ih =>
    refine shows_loadTable.bind fun md => ?_
    split_ifs
    · exact shows_lift
    · refine (shows_updateTableProperties _).attempt.bind fun updated => ?_
      cases updated with
      | ok md => exact shows_lift
      | error e =>
        cases e with
        | conflict rsc ex actual => exact ih
        | _ => exact shows_throw

/-- What the result of a task means. -/
def SwapResult (task : Nat) : CoordinationProgram F → Except TeoDBError Reply →
    CatalogState F L → Prop
  | .adapter (.properties request _), .ok _, s => Logged task (.properties request) s
  | .tryAcquire lock _, .ok (.outcome .acquired), s => Taken task lock s
  | _, _, _ => True

lemma shows_doCommit {tx : Transaction F L}
    (h : ∀ base id, Carries tx.purpose (tx.update base id)) :
    Shows (swapSetting task) tx.doCommit :=
  fun _ => wp_mono (fun _ _ _ => trivial) (doCommit_logged h)

lemma shows_adapter (p : Program F) : Shows (swapSetting task) (program env ident p) :=
  shows_program onlyUpdates_swapSetting (fun _ _ => shows_doCommit fun _ _ => trivial)
    (fun _ => shows_doCommit fun _ _ => trivial) (fun _ => shows_doCommit fun _ _ => ⟨rfl, rfl⟩) p

lemma coordination_result (p : CoordinationProgram F) :
    wp (swapSetting task) (SwapResult task p) (coordinationProgram env ident p) s := by
  have hd : ∀ {α : Type} {q : Prog F L TeoDBError α} {f : α → Reply}, Shows (swapSetting task) q →
      wp (swapSetting task) (fun _ _ => True) (q >>= fun a => pure (f a)) s :=
    fun hq => (hq.bind fun _ => shows_lift) s
  cases p with
  | adapter p =>
    cases p with
    | properties req tries =>
      refine wp_bind.mpr (wp_mono ?_ (updateTableProperties_logged req))
      intro res s he
      cases res with
      | ok md => exact he
      | error e => trivial
    | append req tries => exact hd (shows_adapter _)
    | replace req tries again => exact hd (shows_adapter _)
  | tryAcquire lock tries =>
    refine wp_bind.mpr (wp_mono ?_ tryAcquire_taken)
    intro res s he
    cases res with
    | error e => trivial
    | ok out =>
      cases out with
      | acquired => exact he rfl
      | heldBy owner since => trivial
      | failed e => trivial
  | release lock tries => exact hd shows_release
  | casSet key value again tries => exact hd (shows_casSet again)
  | casRemove keys again tries => exact hd (shows_casRemove again)

lemma log_answer {ch : Choice L} {c : CatalogCall F} {a : CatalogAnswer F L c}
    (h : answer ch task s c = some (a, s')) : s.log <+: s'.log := by
  obtain rfl | ⟨purpose, update, rfl, rfl | ⟨_, t', hap⟩⟩ := answer_state h
  · exact List.prefix_rfl
  · exact List.prefix_rfl
  · obtain ⟨t, _, _, _, rfl⟩ := CatalogState.apply_eq_some hap
    exact List.prefix_append _ _

lemma swapAnswers_of_answer {ch : Choice L} {c : CatalogCall F} {a : CatalogAnswer F L c}
    (h : answer ch task s c = some (a, s')) : SwapAnswers task s c a s' := by
  cases c with
  | updateTable purpose update =>
    cases ch with
    | succeeds =>
      obtain ⟨⟨t', s''⟩, hap, heq⟩ := Option.map_eq_some_iff.mp h
      obtain ⟨rfl, rfl⟩ := Prod.mk.inj heq
      obtain ⟨t, _, _, _, rfl⟩ := CatalogState.apply_eq_some hap
      exact ⟨_, List.mem_concat_self, rfl, rfl⟩
    | fails error =>
      obtain ⟨rfl, _⟩ := Prod.mk.inj (Option.some.inj h)
      trivial
    | _ => cases h
  | _ => trivial

lemma propertySwap_sound : (coordination env ident).Sound StillExpected (fun _ => SwapInv)
    (fun i _ => swapSetting i) SwapResult where
  start := by
    intro s hs
    constructor
    · simp [hs.log_eq]
    · simp [hs.log_eq]
    · simp [hs.log_eq]
    · simp [hs.wire_eq]
  refl _ _ _ := List.prefix_rfl
  trans _ _ _ _ _ := List.IsPrefix.trans
  stable := by
    intro i p r s s' hr hss'
    unfold SwapResult at hr ⊢
    split
    · exact logged_stable s s' hr hss'
    · obtain ⟨owner, lockTs, nowMs, hlog⟩ := hr
      exact ⟨owner, lockTs, nowMs, logged_stable s s' hlog hss'⟩
    · trivial
  spawn i p s hs := ⟨hs, coordination_result p⟩
  answer := by
    intro cfg i p c k ch a s' hg hinv ht hvis ha
    refine ⟨?_, swapAnswers_of_answer ha, fun _ _ _ _ => log_answer ha⟩
    obtain rfl | ⟨purpose, upd, rfl, rfl | ⟨rfl, t', hap⟩⟩ := answer_state ha
    · exact hinv
    · exact hinv.send hvis
    · exact hinv.apply ⟨i, purpose, upd⟩ hvis
        (hg purpose (by simp [updatingPurpose, Cluster.Config.pending, ht])) hap
  interfere := by
    intro cfg ch s' hg hinv hs'
    obtain ⟨message, sent, t', rfl, hse, hap⟩ := deliver_eq_some hs'
    have hcar := hinv.wire sent (List.mem_of_getElem? hse)
    refine ⟨hinv.apply sent hcar (hg sent hse) hap, fun _ _ _ => ?_⟩
    obtain ⟨t, _, _, _, rfl⟩ := CatalogState.apply_eq_some hap
    exact List.prefix_append _ _

/-- An update takes a value of a property away. -/
def TakesAway (key value : String) (entry : Applied F) : Prop :=
  currentValue entry.before.properties key = value ∧
    currentValue entry.after.properties key ≠ value

/-- Between two positions of the history, an update has restored a value. -/
def Restored (key value : String) (log : List (Applied F)) (i j : Nat) : Prop :=
  ∃ k entry, i < k ∧ k < j ∧ log[k]? = some entry ∧
    currentValue entry.before.properties key ≠ value ∧
    currentValue entry.after.properties key = value

/-- Updates of two tasks were applied, with one in between that has restored a value. -/
def RestoredBetween (s : CatalogState F L) (i j : Nat) (key value : String) : Prop :=
  ∃ (x y : Nat) (a b : Applied F), s.log[x]? = some a ∧ s.log[y]? = some b ∧
    a.task = i ∧ b.task = j ∧ Restored key value s.log (min x y) (max x y)

/-- Two tasks have made two nodes the owner and, if both found the lock free, it was freed in
between. -/
def FreedBetween (s : CatalogState F L) (i j : Nat) (node node' : String) : Prop :=
  ∃ (x y : Nat) (a b : Applied F), s.log[x]? = some a ∧ s.log[y]? = some b ∧
    a.task = i ∧ b.task = j ∧ currentValue a.after.properties propOwner = node ∧
    currentValue b.after.properties propOwner = node' ∧
    (currentValue a.before.properties propOwner = "" →
      currentValue b.before.properties propOwner = "" →
      Restored propOwner "" s.log (min x y) (max x y))

/-- A request that expects a value of a key and sets the key to a new one. -/
def Replaces (request : PropertiesRequest) (key value : String) : Prop :=
  (key, value) ∈ request.expected.entries ∧ key ∉ request.removals ∧
    ∃ new, (key, new) ∈ request.updates.entries ∧ new ≠ value

lemma currentValue_applied {req : PropertiesRequest} {key new : String}
    (hrem : key ∉ req.removals) (hupd : (key, new) ∈ req.updates.entries) (props : Properties) :
    currentValue (PropertiesRequest.applied req props) key = new := by
  have hf : (PropertiesRequest.applied req props).find? key = some new := by
    unfold PropertiesRequest.applied
    rw [OrdMap.find?_foldl_erase]
    · exact OrdMap.find?_insertAll_of_mem _ req.updates.keys_nodup hupd
    · rintro removed hmem rfl
      exact hrem hmem
  simp [currentValue, hf]

lemma takesAway_of_replaces {req : PropertiesRequest} {key v : String}
    {en : Applied F} (hswa : Swapped en) (hpur : en.purpose = .properties req)
    (h : Replaces req key v) : TakesAway key v en := by
  obtain ⟨hexp, hrem, new, hupd, hnew⟩ := h
  obtain ⟨hmat, haf⟩ := hswa req hpur
  refine ⟨hmat _ hexp, ?_⟩
  rw [haf, currentValue_applied hrem hupd]
  exact hnew

/-- Of two updates that take one value away, one comes after a restoring update. -/
lemma SwapInv.restored (h : SwapInv s) {key v : String} {i j : Nat} {a b : Applied F}
    (hi : s.log[i]? = some a) (hj : s.log[j]? = some b) (hij : i ≠ j) (ha : TakesAway key v a)
    (hb : TakesAway key v b) : Restored key v s.log (min i j) (max i j) := by
  have hlin : s.log.IsChain fun a b =>
      currentValue a.after.properties key = currentValue b.before.properties key :=
    h.linked.imp fun _ _ heq => congrArg (currentValue · key) heq
  rcases lt_or_gt_of_ne hij with hlt | hgt
  · rw [min_eq_left hlt.le, max_eq_right hlt.le]
    exact exists_restoring hlin hi hj hlt ha.2 hb.1
  · rw [min_eq_right hgt.le, max_eq_left hgt.le]
    exact exists_restoring hlin hj hi hgt hb.2 ha.1

/-- Updates of different tasks that take one value away stand at different positions. -/
lemma SwapInv.restored_of_tasks (h : SwapInv s) {key v : String} {i j : Nat}
    {a b : Applied F} (ha : a ∈ s.log) (hb : b ∈ s.log) (hatask : a.task = i) (hbtask : b.task = j)
    (hij : i ≠ j) : ∃ x y, s.log[x]? = some a ∧ s.log[y]? = some b ∧
      (TakesAway key v a → TakesAway key v b → Restored key v s.log (min x y) (max x y)) := by
  obtain ⟨x, hx⟩ := List.mem_iff_getElem?.mp ha
  obtain ⟨y, hy⟩ := List.mem_iff_getElem?.mp hb
  refine ⟨x, y, hx, hy, h.restored hx hy ?_⟩
  rintro rfl
  cases hx.symm.trans hy
  exact hij (hatask.symm.trans hbtask)

lemma mem_lockProperties (owner lockTs : String) :
    (propOwner, owner) ∈ (CompactionLock.lockProperties owner lockTs).entries := by
  rw [← OrdMap.find?_eq_some_iff]
  have hne : propOwner ≠ propLockTs := by decide
  simp [CompactionLock.lockProperties, OrdMap.find?_insert, hne]

/-- An update that takes the lock makes the node its owner. -/
lemma owner_of_take {owner lockTs : String} {nowMs : Nat} {en : Applied F} (hswa : Swapped en)
    (hpur : en.purpose = .properties (lock.takeRequest owner lockTs nowMs)) :
    currentValue en.after.properties propOwner = lock.nodeId := by
  rw [(hswa _ hpur).2]
  exact currentValue_applied List.not_mem_nil (mem_lockProperties _ _) _

/-- When updates are applied only while their expectations hold, a second successful swap of one
value, or a second taking of the lock, needs an update in between that has undone the first. -/
theorem propertySwap_exclusive (env : AdapterEnv F L P) (ident : TableIdent)
    {cfg : Cluster.Config (interface F L) (CatalogState F L) TeoDBError Reply
      (CoordinationProgram F)}
    (run : (coordination env ident).machine.ReachableIf StillExpected cfg) :
    (∀ i j first second m n r r' key value, i ≠ j →
      cfg.result i = some (.adapter (.properties first m), .ok r) →
      cfg.result j = some (.adapter (.properties second n), .ok r') →
      Replaces first key value → Replaces second key value →
      RestoredBetween cfg.state i j key value) ∧
    ∀ i j lock lock' m n, i ≠ j →
      cfg.result i = some (.tryAcquire lock m, .ok (.outcome .acquired)) →
      cfg.result j = some (.tryAcquire lock' n, .ok (.outcome .acquired)) →
      FreedBetween cfg.state i j lock.nodeId lock'.nodeId := by
  have hs := propertySwap_sound.safe run
  have hinv : SwapInv cfg.state := hs.inv
  constructor
  · intro i j first second m n r r' key value hij hi hj hfirst hsec
    obtain ⟨a, ha, hata, hapu⟩ := hs.result hi
    obtain ⟨b, hb, hbta, hbpu⟩ := hs.result hj
    obtain ⟨x, y, hx, hy, hres⟩ := hinv.restored_of_tasks ha hb hata hbta hij
    exact ⟨x, y, a, b, hx, hy, hata, hbta, hres
      (takesAway_of_replaces (hinv.swapped a ha) hapu hfirst)
      (takesAway_of_replaces (hinv.swapped b hb) hbpu hsec)⟩
  · intro i j lock lock' m n hij hi hj
    obtain ⟨_, _, _, a, ha, hata, hapu⟩ := hs.result hi
    obtain ⟨_, _, _, b, hb, hbta, hbpu⟩ := hs.result hj
    obtain ⟨x, y, hx, hy, hres⟩ := hinv.restored_of_tasks ha hb hata hbta hij
    have hown := owner_of_take (hinv.swapped a ha) hapu
    have hown' := owner_of_take (hinv.swapped b hb) hbpu
    refine ⟨x, y, a, b, hx, hy, hata, hbta, hown, hown', fun hf hf' => ?_⟩
    exact hres ⟨hf, hown ▸ lock.nodeId_ne⟩ ⟨hf', hown' ▸ lock'.nodeId_ne⟩

end

def firstNode : CompactionLock := ⟨"node-1", 7200000, by decide⟩

def secondNode : CompactionLock := ⟨"node-2", 7200000, by decide⟩

/-- A table without snapshots and properties. -/
def unlockedOrders : CatalogState Unit Unit where
  table := some ⟨⟨Uuid.ofNat 7, none, 0, [], OrdMap.empty⟩, ()⟩
  wire := []
  log := []

lemma unlockedOrders_start {env : AdapterEnv Unit Unit Unit} {ident : TableIdent} :
    (coordination env ident).machine.start ⟨unlockedOrders, []⟩ :=
  ⟨⟨by rintro t ⟨⟩ k ⟨⟩, rfl, rfl⟩, rfl⟩

/-- The outcome of a finished acquisition. -/
def lockOutcome (cfg : Cluster.Config (interface Unit Unit) (CatalogState Unit Unit) TeoDBError
    Reply (CoordinationProgram Unit)) (task : Nat) : Option (String × LockOutcome) :=
  match cfg.result task with
  | some (.tryAcquire lock _, .ok (.outcome outcome)) => some (lock.nodeId, outcome)
  | _ => none

/-- The owners that the applied updates have left. -/
def owners (cfg : Cluster.Config (interface Unit Unit) (CatalogState Unit Unit) TeoDBError
    Reply (CoordinationProgram Unit)) : List String :=
  cfg.state.log.map fun entry => currentValue entry.after.properties propOwner

lemma result_of_lockOutcome {cfg : Cluster.Config (interface Unit Unit) (CatalogState Unit Unit)
    TeoDBError Reply (CoordinationProgram Unit)} {task : Nat} {node : String}
    {out : LockOutcome} (h : lockOutcome cfg task = some (node, out)) :
    ∃ lock retries, lock.nodeId = node ∧
      cfg.result task = some (.tryAcquire lock retries, .ok (.outcome out)) := by
  unfold lockOutcome at h
  split at h
  · rename_i lock retries _ hres
    cases h
    exact ⟨lock, retries, rfl, hres⟩
  · cases h

/-- The answers to an acquisition up to its check of the expected values. -/
def upToCheck (task : Nat) : List (Cluster.Turn (CoordinationProgram Unit) (Choice Unit)) :=
  [.answer task (.clock 1000), .answer task .succeeds, .answer task .succeeds]

/-- The answers to the transaction of a property update. -/
def applyUpdate (task : Nat) : List (Cluster.Turn (CoordinationProgram Unit) (Choice Unit)) :=
  [.answer task .succeeds, .answer task (.snapshotId 0), .answer task .succeeds]

/-- One node takes the free lock and releases it, and another takes it then. -/
def takeReleaseTake : List (Cluster.Turn (CoordinationProgram Unit) (Choice Unit)) :=
  .spawn (.tryAcquire firstNode 0) :: upToCheck 0 ++ applyUpdate 0 ++
    [.spawn (.release firstNode 0), .answer 1 .succeeds, .answer 1 .succeeds] ++ applyUpdate 1 ++
    .spawn (.tryAcquire secondNode 0) :: upToCheck 2 ++ applyUpdate 2

theorem propertySwap_exclusive_takeReleaseTake :
    ∃ cfg, (coordination plainAdapter ordersTable).machine.ReachableIf StillExpected cfg ∧
      lockOutcome cfg 0 = some ("node-1", .acquired) ∧
      lockOutcome cfg 2 = some ("node-2", .acquired) ∧ owners cfg = ["node-1", "", "node-2"] ∧
      FreedBetween cfg.state 0 2 "node-1" "node-2" := by
  have hrun : (((coordination plainAdapter ordersTable).machine.guarded StillExpected).exec
      ⟨unlockedOrders, []⟩ takeReleaseTake).map
      (fun cfg => (lockOutcome cfg 0, lockOutcome cfg 2, owners cfg)) =
      some (some ("node-1", .acquired), some ("node-2", .acquired), ["node-1", "", "node-2"]) := by
    decide +kernel
  obtain ⟨cfg, hrch, hobs⟩ := Machine.existsIf_of_exec unlockedOrders_start hrun
  obtain ⟨hfst, hr⟩ := Prod.mk.inj hobs
  obtain ⟨hsec, hown⟩ := Prod.mk.inj hr
  obtain ⟨lock, m, hn, hres⟩ := result_of_lockOutcome hfst
  obtain ⟨lock', n, hn', hres'⟩ := result_of_lockOutcome hsec
  have hfre := (propertySwap_exclusive plainAdapter ordersTable hrch).2 0 2 lock lock' m n
    (by decide) hres hres'
  rw [hn, hn'] at hfre
  exact ⟨cfg, hrch, hfst, hsec, hown, hfre⟩

/-- Both nodes check the free lock before either update is applied. -/
theorem both_nodes_acquire : ∃ cfg, (coordination plainAdapter ordersTable).machine.Reachable cfg ∧
      lockOutcome cfg 0 = some ("node-1", .acquired) ∧
      lockOutcome cfg 1 = some ("node-2", .acquired) ∧ owners cfg = ["node-1", "node-2"] := by
  have hrun : ((coordination plainAdapter ordersTable).machine.exec ⟨unlockedOrders, []⟩
      ([.spawn (.tryAcquire firstNode 0), .spawn (.tryAcquire secondNode 0)] ++ upToCheck 0 ++
        upToCheck 1 ++ applyUpdate 0 ++ applyUpdate 1)).map
      (fun cfg => (lockOutcome cfg 0, lockOutcome cfg 1, owners cfg)) =
      some (some ("node-1", .acquired), some ("node-2", .acquired), ["node-1", "node-2"]) := by
    decide +kernel
  obtain ⟨cfg, hreach, hobs⟩ := Machine.exists_of_exec unlockedOrders_start hrun
  obtain ⟨hfirst, hr⟩ := Prod.mk.inj hobs
  exact ⟨cfg, hreach, hfirst, (Prod.mk.inj hr).1, (Prod.mk.inj hr).2⟩

end TeoDB.Distributed

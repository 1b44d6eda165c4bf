import TeoDB.Catalog.Adapter

/-!
# Replaces and their base snapshot

A replace is meant as a compare-and-swap on the main reference: of all replaces
with one base at most one is published, on top of exactly this base. The check runs
on a load of its own, while the update requires the main reference that the
transaction has reloaded later. The law therefore holds as long as every attempt
reloads a table that is still at the base.

## Implementation notes

References are never reused. `MainView` is the part of a table that this argument reads, so that
property updates leave it alone.
-/

namespace TeoDB.Catalog.Adapter

open TeoDB.Core Lib Async

/-- The main reference and the identifiers in the history. -/
structure MainView where
  currentSnapshotId : Option Int
  snapshotIds : List Int

def mainView (m : TableMetadata) : MainView :=
  ⟨m.currentSnapshotId, m.snapshots.map Snapshot.snapshotId⟩

def referenceVersion : Versioning MainView Int where
  version := MainView.currentSnapshotId
  issued v := {k | k ∈ v.snapshotIds}

section

variable {F L P : Type}

/-- What was read is still the view of the table, or the table has moved on. -/
def BehindTable (base : MainView) (s : CatalogState F L) : Prop :=
  ∀ t ∈ s.table, referenceVersion.Behind base (mainView t.metadata)

/-- What holds of an update from the reload of its attempt on. -/
structure PendingUpdate (s : CatalogState F L) (purpose : Purpose F) (update : TableCommit) :
    Prop where
  snapshot : ∀ snapshot ∈ update.snapshot, ∃ base : MainView,
    update.requireMain = some base.currentSnapshotId ∧
    snapshot.parentSnapshotId = base.currentSnapshotId ∧
    snapshot.snapshotId ∉ referenceVersion.issued base ∧
    referenceVersion.Sound base ∧ BehindTable base s
  replace : ∀ request, purpose = .replace request → update.snapshot.isSome

/-- The update of a replace requires its base. -/
def RequiresBase : Purpose F → TableCommit → Prop
  | .replace request, update => update.requireMain = some (some request.baseSnapshotId)
  | _, _ => True

/-- A published replace extends its base. -/
def OnBase (entry : Applied F) : Prop :=
  ∀ request, entry.purpose = .replace request →
    entry.before.currentSnapshotId = some request.baseSnapshotId ∧
    ∃ snapshot, snapshot.parentSnapshotId = some request.baseSnapshotId ∧
      entry.after.snapshots = entry.before.snapshots ++ [snapshot] ∧
      entry.after.currentSnapshotId = some snapshot.snapshotId

/-- A snapshot of the history that is no longer current. -/
def Superseded (snapshotId : Int) (m : TableMetadata) : Prop :=
  m.currentSnapshotId ≠ some snapshotId ∧ snapshotId ∈ m.snapshots.map Snapshot.snapshotId

structure ReplaceInv (s : CatalogState F L) : Prop where
  sound : ∀ t ∈ s.table, referenceVersion.Sound (mainView t.metadata)
  wire : ∀ sent ∈ s.wire, PendingUpdate s sent.purpose sent.update ∧
    RequiresBase sent.purpose sent.update
  onBase : ∀ entry ∈ s.log, OnBase entry
  superseded : ∀ entry ∈ s.log, ∀ request, entry.purpose = .replace request →
    ∀ t ∈ s.table, Superseded request.baseSnapshotId t.metadata
  distinct : s.log.Pairwise fun a b => ∀ first second, a.purpose = .replace first →
    b.purpose = .replace second → first.baseSnapshotId ≠ second.baseSnapshotId

/-- Of all replaces with one base at most one was published. -/
def OncePerBase (log : List (Applied F)) : Prop :=
  ∀ (i j : Nat) (a b : Applied F) (first second : CommitReplace F), log[i]? = some a →
    log[j]? = some b → a.purpose = .replace first → b.purpose = .replace second →
    first.baseSnapshotId = second.baseSnapshotId → i = j

/-- The table moves on: what was behind stays behind. -/
def MovesOn (s s' : CatalogState F L) : Prop :=
  ∀ base, referenceVersion.Sound base → BehindTable base s → BehindTable base s'

variable {s s' : CatalogState F L} {purpose : Purpose F} {update : TableCommit}

lemma PendingUpdate.moves (h : PendingUpdate s purpose update) (hmoves : MovesOn s s') :
    PendingUpdate s' purpose update where
  snapshot sn hsn := by
    obtain ⟨base, hm, hpar, hfr, hsou, hbeh⟩ := h.snapshot sn hsn
    exact ⟨base, hm, hpar, hfr, hsou, hmoves base hsou hbeh⟩
  replace := h.replace

/-- An update with a snapshot makes it the version of the table. -/
lemma follows_applied {m : TableMetadata} {sn : Snapshot} (hsn : update.snapshot = some sn)
    (hfr : sn.snapshotId ∉ referenceVersion.issued (mainView m)) :
    referenceVersion.Follows (mainView m) (mainView (update.applied m)) where
  issued_subset k hk := by
    have hk : k ∈ m.snapshots.map Snapshot.snapshotId := hk
    show k ∈ (m.snapshots ++ update.snapshot.toList).map Snapshot.snapshotId
    rw [List.map_append]
    exact List.mem_append_left _ hk
  fresh := by
    refine ⟨sn.snapshotId, ?_, hfr, ?_⟩
    · show sn.snapshotId ∈ (m.snapshots ++ update.snapshot.toList).map Snapshot.snapshotId
      simp [hsn]
    · simp [referenceVersion, mainView, TableCommit.applied, hsn]

/-- An applied update either leaves the view or issues a new version. -/
lemma PendingUpdate.applied_view (h : PendingUpdate s purpose update) {t : CatalogTable L}
    (ht : s.table = some t) (hmet : update.Met t.metadata) :
    mainView (update.applied t.metadata) = mainView t.metadata ∧ update.snapshot = none ∨
      ∃ sn, update.snapshot = some sn ∧ sn.parentSnapshotId = t.metadata.currentSnapshotId ∧
        sn.snapshotId ∉ referenceVersion.issued (mainView t.metadata) := by
  cases hsn : update.snapshot with
  | none =>
    refine Or.inl ⟨?_, rfl⟩
    simp [mainView, TableCommit.applied, hsn]
  | some sn =>
    obtain ⟨base, hm, hpar, hfr, _, hbeh⟩ := h.snapshot sn hsn
    have hcur : t.metadata.currentSnapshotId = base.currentSnapshotId := hmet.2 _ hm
    have heq : base = mainView t.metadata := (hbeh t ht).eq_of_version hcur.symm
    subst heq
    exact Or.inr ⟨sn, rfl, hpar, hfr⟩

lemma PendingUpdate.movesOn (sent : Sent F) {t' : CatalogTable L}
    (h : PendingUpdate s sent.purpose sent.update) (hap : s.apply sent = some (t', s')) :
    MovesOn s s' := by
  obtain ⟨t, ht, hmet, rfl, rfl⟩ := CatalogState.apply_eq_some hap
  rintro base hsound hbeh _ ⟨⟩
  obtain ⟨hv, _⟩ | ⟨sn, hsn, _, hfr⟩ := h.applied_view ht hmet
  · exact hv ▸ hbeh t ht
  · exact (hbeh t ht).follows hsound (follows_applied hsn hfr)

/-- A new snapshot supersedes every one of the history. -/
lemma superseded_applied {m : TableMetadata} {sid : Int} {sn : Snapshot}
    (hmem : sid ∈ m.snapshots.map Snapshot.snapshotId) (hsn : update.snapshot = some sn)
    (hfr : sn.snapshotId ∉ referenceVersion.issued (mainView m)) :
    Superseded sid (update.applied m) := by
  constructor
  · simp only [TableCommit.applied, hsn, Option.map_some, Option.some_or]
    intro heq
    exact hfr (Option.some.inj heq ▸ hmem)
  · simp only [TableCommit.applied, List.map_append]
    exact List.mem_append_left _ hmem

lemma ReplaceInv.apply (h : ReplaceInv s) (sent : Sent F) {t' : CatalogTable L}
    (hpd : PendingUpdate s sent.purpose sent.update)
    (hb : RequiresBase sent.purpose sent.update) (hap : s.apply sent = some (t', s')) :
    ReplaceInv s' := by
  have hmoves := hpd.movesOn sent hap
  obtain ⟨t, ht, hmet, rfl, rfl⟩ := CatalogState.apply_eq_some hap
  have hv := hpd.applied_view ht hmet
  -- A replace finds the table at its base and adds a snapshot.
  have hrp : ∀ req, sent.purpose = .replace req →
      t.metadata.currentSnapshotId = some req.baseSnapshotId ∧
      ∃ sn, sent.update.snapshot = some sn ∧ sn.parentSnapshotId = t.metadata.currentSnapshotId ∧
        sn.snapshotId ∉ referenceVersion.issued (mainView t.metadata) := by
    intro req hpur
    have hs := hpd.replace req hpur
    rw [hpur] at hb
    refine ⟨hmet.2 _ hb, hv.resolve_left ?_⟩
    rintro ⟨_, hn⟩
    rw [hn] at hs
    cases hs
  constructor
  · rintro _ ⟨⟩
    obtain ⟨heq, _⟩ | ⟨sn, hsn, _, hfr⟩ := hv
    · exact heq ▸ h.sound t ht
    · exact (follows_applied hsn hfr).sound
  · exact fun m hm => ⟨(h.wire m hm).1.moves hmoves, (h.wire m hm).2⟩
  · intro en hen
    rcases mem_concat_iff.mp hen with hold | rfl
    · exact h.onBase en hold
    · intro req hpur
      obtain ⟨hcur, sn, hsn, hpar, _⟩ := hrp req hpur
      refine ⟨hcur, sn, hpar.trans hcur, ?_, ?_⟩
      · simp [TableCommit.applied, hsn]
      · simp [TableCommit.applied, hsn]
  · rintro en hen req hpur _ ⟨⟩
    rcases mem_concat_iff.mp hen with hold | rfl
    · have hsup := h.superseded en hold req hpur t ht
      obtain ⟨heq, _⟩ | ⟨sn, hsn, _, hfr⟩ := hv
      · obtain ⟨hcur, hids⟩ := MainView.mk.inj heq
        exact ⟨hcur ▸ hsup.1, hids ▸ hsup.2⟩
      · exact superseded_applied hsup.2 hsn hfr
    · obtain ⟨hcur, sn, hsn, _, hfr⟩ := hrp req hpur
      exact superseded_applied (h.sound t ht _ hcur) hsn hfr
  · refine List.pairwise_append.mpr ⟨h.distinct, List.pairwise_singleton _ _, ?_⟩
    intro old hold new hnew first second hfirst hsec hsame
    obtain rfl := List.mem_singleton.mp hnew
    apply (h.superseded old hold first hfirst t ht).1
    rw [hsame]
    exact (hrp second hsec).1

/-- What an attempt learns from its answers. -/
def ReplaceAnswers (s : CatalogState F L) :
    (c : CatalogCall F) → CatalogAnswer F L c → CatalogState F L → Prop
  | .loadTable, .ok table, s' =>
    s' = s ∧ s.table = some table ∧ referenceVersion.Sound (mainView table.metadata)
  | .prepare base, .ok id, s' => s' = s ∧ id ∉ base.snapshots.map Snapshot.snapshotId
  | _, _, _ => True

def ReplaceVisible (s : CatalogState F L) : (interface F L).Event → Prop
  | .call (.updateTable purpose update) => PendingUpdate s purpose update
  | _ => True

def replaceSetting : Setting (interface F L) (CatalogState F L) where
  visible := ReplaceVisible
  interferes := MovesOn
  answers := ReplaceAnswers

/-- A transaction whose snapshots are built on what it has loaded. -/
structure Transaction.Rebases (tx : Transaction F L) : Prop where
  snapshot : ∀ base id, ∀ snapshot ∈ (tx.update base id).snapshot,
    (tx.update base id).requireMain = some base.currentSnapshotId ∧
    snapshot.parentSnapshotId = base.currentSnapshotId ∧ snapshot.snapshotId = id
  replace : ∀ request, tx.purpose = .replace request →
    ∀ base id, (tx.update base id).snapshot.isSome

lemma onlyUpdates_replaceSetting : OnlyUpdates (replaceSetting : Setting (interface F L) _) :=
  ⟨fun _ => trivial, fun _ => trivial⟩

lemma behindTable_stable {base : MainView} (hsound : referenceVersion.Sound base) :
    (replaceSetting : Setting (interface F L) (CatalogState F L)).Stable (BehindTable base) :=
  fun _ _ hs hss' => hss' base hsound hs

lemma doCommit_pending {tx : Transaction F L} (h : tx.Rebases) :
    Shows replaceSetting tx.doCommit := by
  intro s
  refine wp_bind.mpr (wp_mapErr.mpr (wp_call_of (P := fun _ => True) (fun _ _ _ _ => trivial)
    trivial fun s _ => ⟨trivial, ?_⟩))
  rintro ld s' hld
  cases ld with
  | error e => trivial
  | ok tbl =>
    obtain ⟨rfl, htb, hsou⟩ := hld
    have hbeh : BehindTable (mainView tbl.metadata) s' := by
      intro t ht
      cases htb.symm.trans ht
      exact Versioning.Behind.refl _
    refine wp_lift_bind (fun _ _ => ?_) fun _ _ => trivial
    refine wp_bind.mpr (wp_mapErr.mpr (wp_call_of (behindTable_stable hsou) hbeh
      fun s hbeh => ⟨trivial, ?_⟩))
    rintro prep s' hprp
    cases prep with
    | error e => trivial
    | ok sid =>
      obtain ⟨rfl, hfr⟩ := hprp
      refine wp_mapErr.mpr (wp_call_of (behindTable_stable hsou) hbeh
        fun s hbeh => ⟨⟨?_, ?_⟩, fun _ _ _ => trivial⟩)
      · intro sn hsn
        obtain ⟨hm, hpar, rfl⟩ := h.snapshot _ _ sn hsn
        exact ⟨mainView tbl.metadata, hm, hpar, hfr, hsou, hbeh⟩
      · exact fun req hpur => h.replace req hpur _ _

lemma rebases_appendTransaction {env : AdapterEnv F L P} (req : CommitAppend F)
    (tx : AppendTransaction) : (appendTransaction env req tx).Rebases where
  snapshot := by
    rintro base id _ ⟨⟩
    exact ⟨rfl, rfl, rfl⟩
  replace := by
    rintro rq' ⟨⟩

lemma rebases_replaceTransaction {env : AdapterEnv F L P} (req : CommitReplace F) :
    (replaceTransaction env req).Rebases where
  snapshot := by
    rintro base id _ ⟨⟩
    exact ⟨rfl, rfl, rfl⟩
  replace _ _ _ _ := rfl

lemma rebases_propertiesTransaction (req : PropertiesRequest) :
    (propertiesTransaction req : Transaction F L).Rebases where
  snapshot := by
    rintro base id _ ⟨⟩
  replace := by
    rintro rq' ⟨⟩

/-- The update for which a replace waits. -/
def updatingReplace (cfg : Cluster.Config (interface F L) (CatalogState F L) TeoDBError
    TableMetadata (Program F)) (task : Nat) : Option (CommitReplace F × TableCommit) :=
  match cfg.pending task with
  | some (.updateTable (.replace request) update) => some (request, update)
  | _ => none

/-- The attempt of a replace has reloaded a table that was still at its base. -/
def AtBase (cfg : Cluster.Config (interface F L) (CatalogState F L) TeoDBError TableMetadata
    (Program F)) : Cluster.Turn (Program F) (Choice L) → Prop
  | .answer task _ => ∀ u ∈ updatingReplace cfg task,
      u.2.requireMain = some (some u.1.baseSnapshotId)
  | _ => True

instance (cfg : Cluster.Config (interface F L) (CatalogState F L) TeoDBError TableMetadata
    (Program F)) (turn : Cluster.Turn (Program F) (Choice L)) : Decidable (AtBase cfg turn) :=
  match turn with
  | .answer task _ => inferInstanceAs (Decidable (∀ u ∈ updatingReplace cfg task, _))
  | .spawn _ | .interfere _ => .isTrue trivial

lemma replaceAnswers_of_answer (hinv : ReplaceInv s) {ch : Choice L} {i : Nat}
    {c : CatalogCall F} {a : CatalogAnswer F L c} (h : answer ch i s c = some (a, s')) :
    ReplaceAnswers s c a s' := by
  cases c with
  | loadTable =>
    cases ch with
    | succeeds =>
      obtain ⟨t, ht, heq⟩ := Option.map_eq_some_iff.mp h
      obtain ⟨rfl, rfl⟩ := Prod.mk.inj heq
      exact ⟨rfl, ht, hinv.sound t ht⟩
    | fails e =>
      obtain ⟨rfl, _⟩ := Prod.mk.inj (Option.some.inj h)
      trivial
    | _ => cases h
  | prepare base =>
    cases ch with
    | snapshotId id =>
      simp only [answer] at h
      split_ifs at h with hfr
      cases h
      exact ⟨rfl, hfr⟩
    | fails e =>
      obtain ⟨rfl, _⟩ := Prod.mk.inj (Option.some.inj h)
      trivial
    | _ => cases h
  | updateTable purpose update => trivial
  | nowMs => trivial

lemma ReplaceInv.send (h : ReplaceInv s) {task : Nat} (hpd : PendingUpdate s purpose update)
    (hb : RequiresBase purpose update) :
    ReplaceInv { s with wire := s.wire ++ [⟨task, purpose, update⟩] } where
  sound := h.sound
  wire := by
    intro sent hs
    rcases mem_concat_iff.mp hs with hold | rfl
    · exact ⟨(h.wire sent hold).1.moves fun _ _ hbeh => hbeh, (h.wire sent hold).2⟩
    · exact ⟨hpd.moves fun _ _ hbeh => hbeh, hb⟩
  onBase := h.onBase
  superseded := h.superseded
  distinct := h.distinct

variable {env : AdapterEnv F L P} {ident : TableIdent}

lemma replace_sound : (adapter env ident).Sound AtBase (fun _ => ReplaceInv)
    (fun _ _ => replaceSetting) (fun _ _ _ _ => True) where
  start := by
    intro s hs
    constructor
    · intro t ht k hk
      obtain ⟨x, hx, rfl⟩ := hs.sound t ht k hk
      exact List.mem_map_of_mem hx
    · simp [hs.wire_eq]
    · simp [hs.log_eq]
    · simp [hs.log_eq]
    · simp [hs.log_eq]
  refl _ _ _ := fun _ _ h => h
  trans _ _ _ _ _ hab hbc := fun base hsou h => hbc base hsou (hab base hsou h)
  stable _ _ _ _ _ _ _ := trivial
  spawn _ p s hs := ⟨hs, shows_program onlyUpdates_replaceSetting
    (fun req tx => doCommit_pending (rebases_appendTransaction req tx))
    (fun req => doCommit_pending (rebases_replaceTransaction req))
    (fun req => doCommit_pending (rebases_propertiesTransaction req)) p s⟩
  answer := by
    intro cfg i p c k ch a s' hg hinv htask hvis ha
    have hans := replaceAnswers_of_answer hinv ha
    obtain rfl | ⟨purpose, update, rfl, hstate⟩ := answer_state ha
    · exact ⟨hinv, hans, fun _ _ _ _ _ _ h => h⟩
    · have hb : RequiresBase purpose update := by
        cases purpose with
        | replace req =>
          exact hg (req, update) (by simp [updatingReplace, Cluster.Config.pending, htask])
        | _ => trivial
      have hpd : PendingUpdate cfg.state purpose update := hvis
      obtain rfl | ⟨_, t', hap⟩ := hstate
      · exact ⟨hinv.send hpd hb, hans, fun _ _ _ _ _ _ h => h⟩
      · exact ⟨hinv.apply ⟨i, purpose, update⟩ hpd hb hap, hans,
          fun _ _ _ _ => PendingUpdate.movesOn ⟨i, purpose, update⟩ hpd hap⟩
  interfere := by
    intro cfg ch s' _ hinv hs'
    obtain ⟨message, sent, t', _, hsent, hap⟩ := deliver_eq_some hs'
    obtain ⟨hpd, hb⟩ := hinv.wire sent (List.mem_of_getElem? hsent)
    exact ⟨hinv.apply sent hpd hb hap, fun _ _ _ => hpd.movesOn sent hap⟩

/-- When attempts reload a table still at the base, a published replace was applied on top of its
base, and of all with one base at most one was published. -/
theorem commitReplace_compareAndSwap (env : AdapterEnv F L P) (ident : TableIdent)
    {cfg : Cluster.Config (interface F L) (CatalogState F L) TeoDBError TableMetadata (Program F)}
    (run : (adapter env ident).machine.ReachableIf AtBase cfg) :
    (∀ entry ∈ cfg.state.log, OnBase entry) ∧ OncePerBase cfg.state.log := by
  have hinv : ReplaceInv cfg.state := (replace_sound.safe run).inv
  refine ⟨hinv.onBase, ?_⟩
  intro i j a b first second ha hb hfst hsec hs
  obtain ⟨hi, rfl⟩ := List.getElem?_eq_some_iff.mp ha
  obtain ⟨hj, rfl⟩ := List.getElem?_eq_some_iff.mp hb
  have hdis := List.pairwise_iff_getElem.mp hinv.distinct
  rcases lt_trichotomy i j with hlt | heq | hgt
  · exact absurd hs (hdis i j hi hj hlt first second hfst hsec)
  · exact heq
  · exact absurd hs.symm (hdis j i hj hi hgt second first hsec hfst)

end

/-- A table with one snapshot. -/
def loadedOrders : CatalogState Unit Unit where
  table := some ⟨⟨Uuid.ofNat 7, some 41, 0, [⟨41, none, OrdMap.empty⟩], OrdMap.empty⟩, ()⟩
  wire := []
  log := []

lemma loadedOrders_start {env : AdapterEnv Unit Unit Unit} {ident : TableIdent} :
    (adapter env ident).machine.start ⟨loadedOrders, []⟩ := by
  refine ⟨⟨?_, rfl, rfl⟩, rfl⟩
  rintro t ⟨⟩ k ⟨⟩
  exact ⟨_, List.mem_singleton_self _, rfl⟩

def replaceOrders : CommitReplace Unit where
  table := ordersTable
  baseSnapshotId := 41
  removedDataFiles := []
  addedDataFiles := [()]
  properties := OrdMap.empty.insert "teodb.op" "compaction"

/-- The base and the parent of each published replace. -/
def publishedReplaces (cfg : Cluster.Config (interface Unit Unit) (CatalogState Unit Unit)
    TeoDBError TableMetadata (Program Unit)) : List (Nat × Int × Option Int) :=
  cfg.state.log.filterMap fun entry =>
    match entry.purpose with
    | .replace request =>
      some (entry.task, request.baseSnapshotId, entry.before.currentSnapshotId)
    | _ => none

/-- Two replaces pass the check; one is published, and the other waits for the answer to its load.
-/
def twoReplaces : List (Cluster.Turn (Program Unit) (Choice Unit)) :=
  [.spawn (.replace replaceOrders 1 0), .spawn (.replace replaceOrders 1 0),
    .answer 0 .succeeds, .answer 1 .succeeds, .answer 0 .succeeds, .answer 0 (.snapshotId 42),
    .answer 0 .succeeds]

theorem commitReplace_compareAndSwap_twoReplaces :
    ∃ cfg, (adapter plainAdapter ordersTable).machine.ReachableIf AtBase cfg ∧
      publishedReplaces cfg = [(0, 41, some 41)] ∧ (∀ entry ∈ cfg.state.log, OnBase entry) ∧
      OncePerBase cfg.state.log := by
  have hrun : (((adapter plainAdapter ordersTable).machine.guarded AtBase).exec
      ⟨loadedOrders, []⟩ twoReplaces).map publishedReplaces = some [(0, 41, some 41)] := by
    decide +kernel
  obtain ⟨cfg, hrch, hobs⟩ := Machine.existsIf_of_exec loadedOrders_start hrun
  exact ⟨cfg, hrch, hobs, commitReplace_compareAndSwap plainAdapter ordersTable hrch⟩

/-- Both replaces of one base are published, the second on top of the first. -/
theorem both_replaces_published : ∃ cfg, (adapter plainAdapter ordersTable).machine.Reachable cfg ∧
      publishedReplaces cfg = [(0, 41, some 41), (1, 41, some 42)] := by
  have hrun : ((adapter plainAdapter ordersTable).machine.exec ⟨loadedOrders, []⟩
      (twoReplaces ++ [.answer 1 .succeeds, .answer 1 (.snapshotId 43), .answer 1 .succeeds])).map
      publishedReplaces = some [(0, 41, some 41), (1, 41, some 42)] := by
    decide +kernel
  exact Machine.exists_of_exec loadedOrders_start hrun

end TeoDB.Catalog.Adapter

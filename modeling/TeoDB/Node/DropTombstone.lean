import TeoDB.Node.Ddl

/-!
# Drop tombstones and newer incarnations

A tombstone names only the table, and it is written after the table was dropped in the catalog.
When a batch of the next incarnation is acknowledged before that, replay and collection treat its
record as dropped.

When the log holds no record of a newer incarnation at the time a tombstone is
written, tombstones void only what they are meant to.
-/

namespace TeoDB.Node

open TeoDB.Core Lib Lib.MachineInt Storage.Wal Ingest.Buffer
  Ingest.Service

variable {F α : Type}

namespace NodeState

/-- A tombstone is written while the log has no record of a newer incarnation of its
table. -/
def TombstoneFirst (s : NodeState F α) : NodeOp α → Prop
  | .tombstone index _ _ true =>
    match s.statements[index]? with
    | some (.drop table birth _) =>
      ∀ entry ∈ s.log.flat, entry.record.header.op = .append →
        entry.record.header.table = table → entry.birth ≤ birth
    | _ => True
  | _ => True

instance (s : NodeState F α) : (op : NodeOp α) → Decidable (s.TombstoneFirst op)
  | .tombstone index _ _ true =>
    match h : s.statements[index]? with
    | some (.drop table birth _) =>
      decidable_of_iff (∀ entry ∈ s.log.flat, entry.record.header.op = .append →
        entry.record.header.table = table → entry.birth ≤ birth) (by simp [TombstoneFirst, h])
    | some (.create _) => .isTrue (by simp [TombstoneFirst, h])
    | none => .isTrue (by simp [TombstoneFirst, h])
  | .tombstone _ _ _ false | .arrive _ _ | .load _ _ | .createNamespace _ _ | .autoCreate _ _ _
  | .enterRegistry _ | .reserve _ _ | .writeRecord _ | .answer _ _ | .endStream _
  | .createTable _ _ _ | .dropTable _ _ | .evict _ | .rotate | .gc _ _ _ | .crash _ =>
    .isTrue (by simp [TombstoneFirst])

/-- The invariant of a node: tombstones void only their own and older incarnations. -/
structure Voids (s : NodeState F α) : Prop where
  own : s.log.OwnVoids
  births : ∀ entry ∈ s.log.flat, entry.record.header.op = .append →
    entry.birth ≤ s.created.length
  appends : ∀ request ∈ s.requests, ∀ pending ∈ request.phase.pending?,
    pending.record.header.op = .append

section

variable {s s' : NodeState F α}

lemma Voids.of_log (h : s.Voids) (hlog : s'.log = s.log)
    (hcr : s.created.length ≤ s'.created.length) (hreqs : ∀ req ∈ s'.requests, req ∈ s.requests ∨
      ∀ pend ∈ req.phase.pending?, pend.record.header.op = .append) : s'.Voids := by
  refine ⟨hlog ▸ h.own, ?_, ?_⟩
  · intro en hen hop
    rw [hlog] at hen
    exact (h.births en hen hop).trans hcr
  · intro req hreq
    rcases hreqs req hreq with hold | hnew
    · exact h.appends req hold
    · exact hnew

/-- Writing a record that voids nothing newer keeps the order of the log. -/
lemma Voids.write (h : s.Voids) {en : Logged α}
    (hown : ∀ older ∈ s.log.flat, older.record.header.op = .append → en.Buries older →
      older.birth ≤ en.birth)
    (hbirth : en.record.header.op = .append → en.birth ≤ s.created.length) :
    Voids { s with log := s.log.write en } := by
  refine ⟨?_, ?_, h.appends⟩
  · rw [NodeLog.OwnVoids, NodeLog.flat_write, List.pairwise_append]
    refine ⟨h.own, List.pairwise_singleton _ _, ?_⟩
    intro older holder tomb ht
    rw [List.mem_singleton.mp ht]
    exact hown older holder
  · intro logged hlog
    rw [NodeLog.flat_write, List.mem_append, List.mem_singleton] at hlog
    rcases hlog with hlog | rfl
    · exact h.births logged hlog
    · exact hbirth

lemma Voids.finish (h : s.Voids) (i : Nat) : (s.finish i).Voids :=
  h.of_log rfl (le_refl _) fun _ hr => Or.inl (List.mem_of_mem_eraseIdx hr)

lemma Voids.goOn (h : s.Voids) (i : Nat) (req : Request α) {ph : RequestPhase α}
    (hph : ∀ pend ∈ ph.pending?, pend.record.header.op = .append) : (s.goOn i req ph).Voids := by
  refine h.of_log rfl (le_refl _) ?_
  intro r hr
  rcases List.mem_cons.mp hr with rfl | hr
  · exact Or.inr hph
  · exact Or.inl (List.mem_of_mem_eraseIdx hr)

lemma Voids.catalogCreate (h : s.Voids) {tb : TableIdent} {md : TableMetadata}
    (hcr : s.catalogCreate tb md = some s') : s'.Voids := by
  unfold NodeState.catalogCreate at hcr
  split at hcr
  · cases hcr
    exact h
  · split_ifs at hcr
    cases hcr
    exact h.of_log rfl (by simp) fun _ hr => Or.inl hr

lemma Voids.setBuffer (h : s.Voids) (buf : Nat) (t : TableBuffer F α) :
    (s.setBuffer buf t).Voids := h.of_log rfl (le_refl _) fun _ hr => Or.inl hr

lemma lookup_pending (s : NodeState F α) (tbl : TableIdent) (created : Bool) :
    (s.lookup tbl created).pending? = none := by
  unfold lookup
  cases s.registry tbl <;> rfl

lemma Voids.request {config : NodeConfig} {i : Nat} {req : Request α} (h : s.Voids)
    (hreq : s.requests[i]? = some req) (hm : RequestMove config s i req s') : s'.Voids := by
  cases hm with
  | ends hph => exact h.finish i
  | waits hph hn =>
    apply h.goOn
    rcases hn with rfl | rfl <;> simp [RequestPhase.pending?]
  | loads hph hcatalog hgen => exact h.goOn _ _ (by simp [RequestPhase.pending?])
  | creates hph hcr => exact (h.catalogCreate hcr).goOn _ _ (by simp [lookup_pending])
  | createsUnseen hph hcr => exact (h.catalogCreate hcr).finish i
  | finds hph hreg => exact h.goOn _ _ (by simp [RequestPhase.pending?])
  | registers hph hreg =>
    apply Voids.goOn
    · exact h.of_log rfl (le_refl _) fun _ hr => Or.inl hr
    · simp [RequestPhase.pending?]
  | reserves hph hh hreserve =>
    exact (h.setBuffer _ _).goOn _ _ (by simp [RequestPhase.pending?, walRecord])
  | writes hph =>
    rename_i buf pend
    have hop : pend.record.header.op = .append :=
      h.appends req (List.mem_of_getElem? hreq) pend (by simp [hph, RequestPhase.pending?])
    apply Voids.goOn
    · apply h.write
      · intro older _ _ hbur
        simp [Logged.Buries, hop] at hbur
      · exact fun _ => List.idxOf_le_length
    · simpa [RequestPhase.pending?] using hop
  | fails hph hh => exact (h.setBuffer _ _).finish i
  | accepts hph hh stays =>
    dsimp only
    have hak : ∀ (t : TableBuffer F α) buf table tableUuid receipt,
        ((s.setBuffer buf t).acknowledge table tableUuid receipt).Voids :=
      fun t buf _ _ _ => (h.setBuffer buf t).of_log rfl (le_refl _) fun _ hr => Or.inl hr
    split_ifs
    · exact (hak _ _ _ _ _).goOn _ _ (by simp [RequestPhase.pending?])
    · exact (hak _ _ _ _ _).finish i

lemma Voids.evict {i : Nat} {stm : Statement} (h : s.Voids)
    (hs : s.statementStep i stm (.evict i) = some s') : s'.Voids := by
  have hsa : ∀ tb stms, Voids { s.unregister tb with statements := stms } :=
    fun _ _ => h.of_log rfl (le_refl _) fun _ hr => Or.inl hr
  unfold statementStep at hs
  dsimp only at hs
  split at hs
  · cases hs
    exact hsa _ _
  · cases hs
    exact hsa _ _
  · cases hs

lemma Voids.tombstone {i : Nat} {stm : Statement} {batchId : Uuid}
    {created : Int} {wr : Bool} (h : s.Voids) (hstm : s.statements[i]? = some stm)
    (hfst : s.TombstoneFirst (.tombstone i batchId created wr))
    (hs : s.statementStep i stm (.tombstone i batchId created wr) = some s') : s'.Voids := by
  unfold statementStep at hs
  dsimp only at hs
  split at hs
  · rename_i tb birth
    cases hs
    cases wr with
    | false => exact h.of_log rfl (le_refl _) fun _ hr => Or.inl hr
    | true =>
      simp only [TombstoneFirst, hstm] at hfst
      let en : Logged α := ⟨WalRecord.dropTombstone tb batchId created, birth⟩
      have hw : Voids { s with log := s.log.write en } := by
        apply h.write
        · exact fun older holder happ hbur => hfst older holder happ hbur.2.symm
        · intro happ
          cases happ
      exact hw.of_log rfl (le_refl _) fun _ hr => Or.inl hr
  · cases hs

/-- Recovery writes tombstones after every record of the log. -/
lemma Voids.restart (h : s.Voids) (dropped : List (TableIdent × Uuid × Int)) :
    (s.restart dropped).Voids := by
  have hreo : Voids { s.restart [] with log := s.log.reopen } := by
    refine ⟨?_, ?_, by simp [NodeState.restart]⟩
    · rw [NodeLog.OwnVoids, NodeLog.flat_reopen]
      exact h.own
    · rw [NodeLog.flat_reopen]
      exact h.births
  unfold NodeState.restart
  generalize s.log.reopen = log at hreo
  induction dropped generalizing log with
  | nil => exact hreo
  | cons table rest ih =>
    apply ih
    exact hreo.write (fun older holder happ _ => hreo.births older holder happ)
      (by simp [WalRecord.dropTombstone])

lemma Voids.next {config : NodeConfig} {op : NodeOp α} (h : s.Voids)
    (hfirst : s.TombstoneFirst op) (hn : s.next config op = some s') : s'.Voids := by
  have hreqs : ∀ i, op.movedRequest = some i → s'.Voids := by
    intro i hmoved
    obtain ⟨req, hi, hs⟩ := requestStep_of_next hmoved hn
    exact h.request hi (requestStep_move hs)
  cases op with
  | arrive tr tbl =>
    cases hn
    refine h.of_log rfl (le_refl _) ?_
    intro r hr
    rcases List.mem_cons.mp hr with rfl | hr
    · exact Or.inr (by simp [lookup_pending])
    · exact Or.inl hr
  | load i fl => exact hreqs i rfl
  | createNamespace i ok => exact hreqs i rfl
  | autoCreate i md out => exact hreqs i rfl
  | enterRegistry i => exact hreqs i rfl
  | reserve i prep => exact hreqs i rfl
  | writeRecord i => exact hreqs i rfl
  | answer i result => exact hreqs i rfl
  | endStream i => exact hreqs i rfl
  | createTable tbl md out =>
    simp only [NodeState.next] at hn
    split at hn
    · cases hn
      exact h
    · cases hn
      exact h
    · exact h.catalogCreate hn
    · obtain ⟨created, hcr, rfl⟩ := Option.map_eq_some_iff.mp hn
      exact (h.catalogCreate hcr).of_log rfl (le_refl _) fun _ hr => Or.inl hr
  | dropTable tbl out =>
    simp only [NodeState.next] at hn
    split at hn <;> obtain rfl := Option.some.inj hn
    · exact h
    · exact h
    · exact h.of_log rfl (le_refl _) fun _ hr => Or.inl hr
    · exact h.of_log rfl (le_refl _) fun _ hr => Or.inl hr
  | evict i =>
    simp only [NodeState.next] at hn
    split at hn
    · cases hn
    · exact h.evict hn
  | tombstone i batchId createdAtMs wr =>
    simp only [NodeState.next] at hn
    split at hn
    · cases hn
    · rename_i stm hstm
      exact h.tombstone hstm hfirst hn
  | rotate =>
    cases hn
    refine ⟨?_, ?_, h.appends⟩
    · rw [NodeLog.OwnVoids, NodeLog.flat_rotate]
      exact h.own
    · rw [NodeLog.flat_rotate]
      exact h.births
  | gc cm rf n =>
    cases hn
    have hsub := s.log.flat_collect_sublist cm rf n
    exact ⟨h.own.sublist hsub, fun en hen => h.births en (hsub.subset hen), h.appends⟩
  | crash dropped =>
    simp only [NodeState.next] at hn
    split_ifs at hn
    cases hn
    exact h.restart dropped

/-- When each tombstone is written before any record of a newer incarnation, no record is lost to
the tombstone of an older one. -/
theorem newerKept_of_tombstoneFirst {config : NodeConfig}
    (h : (machine F α config).ReachableIf TombstoneFirst s) : s.log.NewerKept := by
  apply NodeLog.OwnVoids.newerKept
  apply Voids.own
  apply h.invariant
  · rintro s ⟨_, _, heq⟩
    rw [heq]
    exact ⟨List.Pairwise.nil, by simp [NodeLog.flat, NodeLog.segments], by simp⟩
  · intro s op s' hi hfirst hn
    exact hi.next hfirst hn

end

section

/-- One table in the catalog. -/
def plainStart : NodeState Unit Nat :=
  ⟨fun table => if table = plainTable then some (plainMetadata 6) else none, [.ofNat 6], [],
    fun _ => none, [], [], ⟨[], none, 1⟩, []⟩

lemma plainStart_start : (machine Unit Nat plainConfig).start plainStart := by
  refine ⟨?_, ?_, rfl⟩
  · intro tb md h
    simp only [plainStart] at h
    split_ifs at h
    cases h
    exact List.mem_singleton.mpr rfl
  · intro tb table' md md' h h' _
    simp only [plainStart] at h h'
    split_ifs at h h' with ht ht'
    exact ht.trans ht'.symm

/-- The tombstone is written before the table is created again. -/
def tombstoneBeforeCreate : List (NodeOp Nat) :=
  [ .dropTable plainTable .answered, .evict 0, .tombstone 0 (.ofNat 2) 0 true,
    .createTable plainTable (plainMetadata 7) .answered, .evict 0 ] ++ plainIngest 1

theorem newerKept_tombstoneBeforeCreate :
    ∃ s, (machine Unit Nat plainConfig).ReachableIf TombstoneFirst s ∧
      s.log.flat = [⟨Gc.plainTombstone, 0⟩, ⟨Gc.plainAppend, 1⟩] ∧ s.log.NewerKept := by
  have hrun : (((machine Unit Nat plainConfig).guarded TombstoneFirst).exec plainStart
      tombstoneBeforeCreate).map (fun s => s.log.flat) =
      some [⟨Gc.plainTombstone, 0⟩, ⟨Gc.plainAppend, 1⟩] := rfl
  obtain ⟨s, hs, hlog⟩ := Machine.existsIf_of_exec plainStart_start hrun
  exact ⟨s, hs, hlog, newerKept_of_tombstoneFirst hs⟩

/-- The table is created again and a row is acknowledged before the tombstone. -/
def lateTombstone : List (NodeOp Nat) :=
  [ .dropTable plainTable .answered, .evict 0,
    .createTable plainTable (plainMetadata 7) .answered, .evict 0 ] ++ plainIngest 1 ++
  [ .tombstone 0 (.ofNat 2) 0 true ]

/-- The directory of a log with the two records in its open segment. -/
def lateDirectory : QuietLog where
  files := ⟨[(1, ⟨Gc.plainFrame 1 ++ Gc.plainFrame 2, none⟩)], by decide⟩
  current := some 1
  seqBound := by decide
  currentLast := by decide

lemma lateDirectory_represents : Represents Gc.plainCodec lateDirectory
    ⟨[], some (1, [⟨Gc.plainAppend, 1⟩, ⟨Gc.plainTombstone, 0⟩]), 2⟩ :=
  ⟨rfl, .cons ⟨rfl, by decide⟩ .nil⟩

/-- Replay omits an acknowledged row, as the tombstone of the old incarnation was written after it.
-/
theorem lateTombstone_omits_newer : ∃ s, (machine Unit Nat plainConfig).Reachable s ∧
      s.acked = [⟨plainTable, .ofNat 7, ⟨.ofNat 1, ⟨.ofNat 3⟩, 1, 1⟩⟩] ∧
      s.log.flat = [⟨Gc.plainAppend, 1⟩, ⟨Gc.plainTombstone, 0⟩] ∧ ¬ s.log.NewerKept := by
  have hrun : ((machine Unit Nat plainConfig).exec plainStart lateTombstone).map
      (fun s => (s.acked, s.log)) =
      some ([⟨plainTable, .ofNat 7, ⟨.ofNat 1, ⟨.ofNat 3⟩, 1, 1⟩⟩],
        ⟨[], some (1, [⟨Gc.plainAppend, 1⟩, ⟨Gc.plainTombstone, 0⟩]), 2⟩) := rfl
  obtain ⟨s, hs, hobs⟩ := Machine.exists_of_exec plainStart_start hrun
  obtain ⟨hak, hlog⟩ := Prod.ext_iff.mp hobs
  refine ⟨s, hs, hak, ?_, ?_⟩
  · rw [show s.log = _ from hlog]
    rfl
  · rw [show s.log = _ from hlog]
    intro hk
    have hrep : Replay.replay Gc.plainCodec (fun _ => none) .fail ⟨"wal", fun _ => none⟩
        lateDirectory.files = .ok [] := rfl
    have hmem := hk.replayed _ _ lateDirectory_represents _ _ _ _ hrep []
      ⟨Gc.plainAppend, 1⟩ [⟨Gc.plainTombstone, 0⟩] rfl rfl rfl
      (by simp)
    exact List.not_mem_nil hmem

end

end NodeState

end TeoDB.Node

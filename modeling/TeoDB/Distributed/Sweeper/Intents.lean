import TeoDB.Distributed.Sweeper.Exact
import TeoDB.Lib.Tasks

/-!
# Sweeps and live intents

A flush uploads its data files, writes an intent that lists them to a sidecar, publishes
the intent and removes the sidecar. A sweep on any node knows what snapshots record and
how old an object is, and nothing of sidecars. So the files of an intent are safe as
long as every sweep finds them recorded or too young.

## Implementation notes

Uploads, writing and removal of sidecars and commits are possible at any time, and an intent may
stay for ever. `view` is a ghost: what the answers to a sweep have told it.
-/

namespace TeoDB.Distributed

open TeoDB.Core Lib Lib.Async Catalog Storage Storage.Wal

structure SweepView where
  dataPrefix : String
  keys : List String
  listed : List ObjectMeta
  now : Option Int
  answered : Nat
deriving DecidableEq

namespace SweepView

def initial : SweepView := ⟨"", [], [], none, 0⟩

def afterAnswer (v : SweepView) : (c : SweepCall) → SweepAnswer c → SweepView
  | .loadAllReferencedFilePaths, .ok paths => { v with keys := paths.map referencedKey }
  | .loadRetainedFilePaths _ _, .ok retained => { v with keys := retained.paths.map referencedKey }
  | .list dataPrefix, .ok objects => { v with dataPrefix := dataPrefix, listed := objects }
  | .now, now => { v with now := some now, answered := 0 }
  | .delete _, _ => { v with answered := v.answered + 1 }
  | _, _ => v

/-- The keys that the sweep is still going to delete. -/
def doomed (minAge : Nat) (v : SweepView) : List String :=
  match v.now with
  | none => []
  | some now => ((v.listed.filter (isCandidate minAge v.dataPrefix v.keys now)).map
      ObjectMeta.path).drop v.answered

lemma doomed_answered (minAge : Nat) (v : SweepView) :
    doomed minAge { v with answered := v.answered + 1 } = (v.doomed minAge).tail := by
  unfold doomed
  cases v.now with
  | none => rfl
  | some now => exact List.tail_drop.symm

end SweepView

/-- Sidecars are listed with the node that has them. -/
structure StoreState (P : Type) where
  table : IcebergTable P
  pins : List Int
  objects : OrdMap String Int
  sidecars : List (Nat × PreparedFlush (DataFile P))
  view : Nat → SweepView

/-- `lost` is a delete that was done and whose answer fails. -/
inductive StoreChoice (P : Type) where
  | succeeds
  | fails (error : TeoDBError)
  | lost (error : TeoDBError)
  | clock (millis : Int)
  | now (now : Int)
  | upload (key : String) (lastModified : Int)
  | persist (node : Nat) (intent : PreparedFlush (DataFile P))
  | removeSidecar (node : Nat)
  | commit (snapshot : IcebergSnapshot P)
  | pin (pins : List Int)

section

variable {P : Type}

def intentKeys (intent : PreparedFlush (DataFile P)) : List String :=
  intent.dataFiles.map fun file => file.path.key

/-- The keys that a sidecar lists. -/
def StoreState.namedKeys (s : StoreState P) : List String :=
  s.sidecars.flatMap fun sidecar => intentKeys sidecar.2

/-- The answer to a read, or its failure. -/
def readAnswer {β : Type} (choice : StoreChoice P) (s : StoreState P) (value : TeoDBResult β) :
    Option (TeoDBResult β × StoreState P) :=
  match choice with
  | .succeeds => some (value, s)
  | .fails error => some (.error error, s)
  | _ => none

def storeAnswer (choice : StoreChoice P) (s : StoreState P) :
    (c : SweepCall) → Option (SweepAnswer c × StoreState P)
  | .expireStale => readAnswer choice s (.ok 0)
  | .activeSnapshots => readAnswer choice s (.ok s.pins)
  | .loadTable => readAnswer choice s (icebergLocationToTeodb s.table.location)
  | .loadAllReferencedFilePaths =>
    readAnswer choice s (.ok (s.table.collectReferencedPaths fun _ => true))
  | .loadRetainedFilePaths retention protectedIds =>
    match choice with
    | .clock millis => some (.ok (s.table.retainedFileSet retention protectedIds millis), s)
    | .fails error => some (.error error, s)
    | _ => none
  | .list dataPrefix => readAnswer choice s (.ok (listObjects s.objects dataPrefix))
  | .now =>
    match choice with
    | .now now => some (now, s)
    | _ => none
  | .delete path =>
    match choice with
    | .succeeds => some (.ok (), { s with objects := s.objects.erase path })
    | .fails error => some (.error error, s)
    | .lost error => some (.error error, { s with objects := s.objects.erase path })
    | _ => none

/-- An answer with its record in the view of the sweep. -/
def viewedAnswer (choice : StoreChoice P) (task : Nat) (s : StoreState P) (c : SweepCall) :
    Option (SweepAnswer c × StoreState P) :=
  (storeAnswer choice s c).map fun r => (r.1, { r.2 with
    view := Function.update s.view task ((s.view task).afterAnswer c r.1) })

/-- What flushes, recovery and other nodes do. -/
def actByOthers (choice : StoreChoice P) (s : StoreState P) : Option (StoreState P) :=
  match choice with
  | .upload key lastModified => some { s with objects := s.objects.insert key lastModified }
  | .persist node intent => some { s with
      sidecars := s.sidecars.filter (fun sidecar => sidecar.1 ≠ node) ++ [(node, intent)] }
  | .removeSidecar node => some { s with
      sidecars := s.sidecars.filter fun sidecar => sidecar.1 ≠ node }
  | .commit snapshot => some { s with table := { s.table with
      currentSnapshotId := some snapshot.snapshotId
      snapshots := s.table.snapshots ++ [snapshot] } }
  | .pin pins => some { s with pins := pins }
  | _ => none

/-- Every listed file of a sidecar is in the store. -/
def StoreState.FilesPresent (s : StoreState P) : Prop :=
  ∀ key ∈ s.namedKeys, (s.objects.find? key).isSome

structure StoreState.Start (s : StoreState P) : Prop where
  present : s.FilesPresent
  view_eq : ∀ task, s.view task = .initial

/-- Sweeps of one table, with any settings, on any nodes. -/
def sweeps : Cluster sweepInterface (StoreState P) TeoDBError SweepReport OrphanSweeper
    (StoreChoice P) where
  start := StoreState.Start
  program := sweep
  answer := viewedAnswer
  interfere := actByOthers

abbrev SweepConfig (P : Type) :=
  Cluster.Config sweepInterface (StoreState P) TeoDBError SweepReport OrphanSweeper

/-- The keys that running sweeps are going to delete. -/
def doomedKeys (cfg : SweepConfig P) : List String :=
  cfg.tasks.zipIdx.flatMap fun t => (cfg.state.view t.2).doomed t.1.origin.minAge

/-- The sweeper of a task that waits for the clock. -/
def readingClock (cfg : SweepConfig P) (task : Nat) : Option OrphanSweeper :=
  match cfg.tasks[task]? with
  | some ⟨sweeper, .call .now _⟩ => some sweeper
  | _ => none

/-- At the clock reading of a sweep the files of sidecars are recorded or too young; a written
sidecar has its files in the store and out of reach of sweeps. -/
def SparesIntents (cfg : SweepConfig P) : Cluster.Turn OrphanSweeper (StoreChoice P) → Prop
  | .answer task (.now now) => ∀ sweeper ∈ readingClock cfg task, ∀ key ∈ cfg.state.namedKeys,
      key ∉ ((cfg.state.view task).afterAnswer .now now).doomed sweeper.minAge
  | .interfere (.persist _ intent) => ∀ key ∈ intentKeys intent,
      (cfg.state.objects.find? key).isSome ∧ key ∉ doomedKeys cfg
  | _ => True

instance (cfg : SweepConfig P) (turn : Cluster.Turn OrphanSweeper (StoreChoice P)) :
    Decidable (SparesIntents cfg turn) :=
  match turn with
  | .answer task (.now _) => inferInstanceAs (Decidable (∀ sweeper ∈ readingClock cfg task, _))
  | .interfere (.persist _ intent) =>
    inferInstanceAs (Decidable (∀ key ∈ intentKeys intent, _ ∧ _))
  | .spawn _ | .answer _ .succeeds | .answer _ (.fails _) | .answer _ (.lost _)
  | .answer _ (.clock _) | .answer _ (.upload _ _) | .answer _ (.persist _ _)
  | .answer _ (.removeSidecar _) | .answer _ (.commit _) | .answer _ (.pin _)
  | .interfere .succeeds | .interfere (.fails _) | .interfere (.lost _) | .interfere (.clock _)
  | .interfere (.now _) | .interfere (.upload _ _) | .interfere (.removeSidecar _)
  | .interfere (.commit _) | .interfere (.pin _) => .isTrue trivial

end

section

variable {P : Type} {s s' : StoreState P} {task : Nat} {sweeper : OrphanSweeper}

/-- A sweep deletes nothing that a sidecar lists, and others write no sidecar with a key that it is
going to delete. -/
def sweepSetting (task : Nat) (sweeper : OrphanSweeper) :
    Setting sweepInterface (StoreState P) where
  visible s event := ∀ path, event = .call (.delete path) → path ∉ s.namedKeys
  interferes s s' := s'.view task = s.view task ∧
    ∀ key ∈ (s.view task).doomed sweeper.minAge, key ∈ s'.namedKeys → key ∈ s.namedKeys
  answers s c a s' := s'.view task = (s.view task).afterAnswer c a ∧ s'.namedKeys = s.namedKeys ∧
    (c = .now → ∀ key ∈ s.namedKeys, key ∉ (s'.view task).doomed sweeper.minAge)

/-- The view is the given one. -/
def Viewed (task : Nat) (v : SweepView) (s : StoreState P) : Prop := s.view task = v

lemma viewed_stable {v : SweepView} :
    (sweepSetting (P := P) task sweeper).Stable (Viewed task v) :=
  fun _ _ hs hss' => hss'.1.trans hs

/-- What is going to be deleted, and none of it is listed by a sidecar. -/
structure Deleting (task : Nat) (sweeper : OrphanSweeper) (keys : List String)
    (s : StoreState P) : Prop where
  doomed : (s.view task).doomed sweeper.minAge = keys
  unnamed : ∀ key ∈ keys, key ∉ s.namedKeys

lemma deleting_stable {keys : List String} :
    (sweepSetting (P := P) task sweeper).Stable (Deleting task sweeper keys) := by
  intro s s' hs hss'
  refine ⟨by rw [hss'.1, hs.doomed], fun key hkey hnm => ?_⟩
  exact hs.unnamed key hkey (hss'.2 key (hs.doomed ▸ hkey) hnm)

lemma wp_viewed {α : Type} {Q : Except TeoDBError α → StoreState P → Prop} {v : SweepView}
    {c : SweepCall} {k : SweepAnswer c → SweepProg (StoreState P) α} (hs : Viewed task v s)
    (hc : ∀ path, c ≠ .delete path) (h : ∀ a s', Viewed task (v.afterAnswer c a) s' →
      (c = .now → ∀ key ∈ s'.namedKeys, key ∉ (s'.view task).doomed sweeper.minAge) →
      wp (sweepSetting task sweeper) Q (k a) s') :
    wp (sweepSetting task sweeper) Q (Async.request (I := sweepInterface) c >>= k) s := by
  refine wp_request_bind_of viewed_stable hs fun s hs => ⟨?_, ?_⟩
  · rintro path ⟨⟩
    exact absurd rfl (hc path)
  · rintro a s' ⟨hv, hnm, hnow⟩
    refine h a s' ?_ ?_
    · rw [Viewed, hv, hs]
    · rw [hnm]
      exact hnow

/-- The loop deletes the keys that are left, which no sidecar lists. -/
lemma deleteEach_spares {isOrphan : ObjectMeta → Bool} {objs : List ObjectMeta}
    (hs : Deleting task sweeper ((objs.filter isOrphan).map ObjectMeta.path) s) :
    wp (sweepSetting task sweeper) (fun _ _ => True) (deleteEach isOrphan objs) s := by
  induction objs generalizing s with
  | nil => trivial
  | cons obj rest ih =>
    unfold deleteEach
    by_cases horp : isOrphan obj = true
    · rw [if_pos horp]
      rw [List.filter_cons_of_pos horp, List.map_cons] at hs
      refine wp_request_bind_of deleting_stable hs fun s hs => ⟨?_, ?_⟩
      · rintro path ⟨⟩
        exact hs.unnamed _ List.mem_cons_self
      · rintro res s' ⟨hv, hnm, _⟩
        have hr : Deleting task sweeper ((rest.filter isOrphan).map ObjectMeta.path) s' := by
          constructor
          · rw [hv]
            change SweepView.doomed _ { s.view task with answered := _ } = _
            rw [SweepView.doomed_answered, hs.doomed, List.tail_cons]
          · rw [hnm]
            exact fun key hkey => hs.unnamed key (List.mem_cons_of_mem _ hkey)
        refine wp_bind.mpr (wp_mono ?_ (ih hr))
        rintro (error | deleted) _ _
        · trivial
        · cases res <;> trivial
    · rw [if_neg horp]
      rw [List.filter_cons_of_neg horp] at hs
      exact ih hs

lemma deleteCandidates_spares (sweeper : OrphanSweeper) {v : SweepView} (hs : Viewed task v s) :
    wp (sweepSetting task sweeper) (fun _ _ => True)
      (deleteCandidates sweeper v.dataPrefix v.listed v.keys) s := by
  refine wp_viewed hs (by simp) fun now s' hv hunn => deleteEach_spares ?_
  have hdoo : (s'.view task).doomed sweeper.minAge = (v.listed.filter
      (isCandidate sweeper.minAge v.dataPrefix v.keys now)).map ObjectMeta.path := by
    rw [hv]
    rfl
  exact ⟨hdoo, fun key hkey hnm => hunn rfl key hnm (hdoo ▸ hkey)⟩

/-- The keys that a sweep protects are those of its view. -/
lemma collectProtectedFiles_viewed {pinned : List Int} : wp (sweepSetting task sweeper)
      (ends (fun fs s => ∃ v, Viewed task v s ∧ v.keys = fs.keys) fun _ => True)
      (collectProtectedFiles sweeper pinned) s := by
  unfold collectProtectedFiles
  cases sweeper.retention with
  | none =>
    refine wp_viewed rfl (by simp) fun ld s' hv _ => ?_
    cases ld with
    | error e => trivial
    | ok paths => exact ⟨_, hv, rfl⟩
  | some ret =>
    refine wp_viewed rfl (by simp) fun ld s' hv _ => ?_
    cases ld with
    | error e => trivial
    | ok retained => exact ⟨_, hv, rfl⟩

lemma listDataObjects_viewed {v : SweepView} {loc : String} (hs : Viewed task v s) :
    wp (sweepSetting task sweeper)
      (ends (fun listing s => Viewed task { v with dataPrefix := listing.1, listed := listing.2 } s)
        fun _ => True) (listDataObjects loc) s := by
  refine wp_lift_bind (fun parsed _ => ?_) fun _ _ => trivial
  refine wp_viewed hs (by simp) fun ls s' hv _ => ?_
  cases ls with
  | error e => trivial
  | ok objects => exact hv

lemma pinsChangedDuringSweep_viewed {v : SweepView} {fs : ProtectedFiles} (hs : Viewed task v s) :
    wp (sweepSetting task sweeper) (ends (fun _ => Viewed task v) fun _ => True)
      (pinsChangedDuringSweep fs) s := by
  unfold pinsChangedDuringSweep
  split_ifs
  · refine wp_viewed hs (by simp) fun pins s' hv _ => ?_
    cases pins with
    | error e => trivial
    | ok pins => exact hv
  · exact hs

/-- A sweep deletes nothing that a sidecar lists. -/
lemma sweep_spares : wp (sweepSetting task sweeper) (fun _ _ => True) (sweep sweeper) s := by
  have hp : ∀ s : StoreState P, wp (sweepSetting task sweeper)
      (ends (fun _ _ => True) fun _ => True) activePins s := by
    intro s
    refine wp_viewed rfl (by simp) fun _ s' _ _ => wp_viewed rfl (by simp) fun pins _ _ _ => ?_
    cases pins <;> trivial
  refine wp_bind_of (hp s) fun pinned s _ => ?_
  refine wp_viewed rfl (by simp) fun loaded s' _ _ => ?_
  refine wp_lift_bind (fun loc _ => ?_) fun _ _ => trivial
  refine wp_bind_of collectProtectedFiles_viewed ?_
  rintro files s ⟨v, hv, hk⟩
  refine wp_bind_of (listDataObjects_viewed hv) fun listing s hv => ?_
  refine wp_bind_of (pinsChangedDuringSweep_viewed hv) ?_
  intro changed s hv
  cases changed with
  | true => trivial
  | false =>
    have hdel := deleteCandidates_spares sweeper hv
    rw [hk] at hdel
    refine wp_bind.mpr (wp_mono ?_ hdel)
    rintro (error | deleted) _ _ <;> trivial

end

section

variable {P : Type} {s s' : StoreState P} {task : Nat}

/-- Only a delete changes the store, and it erases its key if anything. -/
lemma storeAnswer_frame {ch : StoreChoice P} {c : SweepCall} {a : SweepAnswer c}
    (h : storeAnswer ch s c = some (a, s')) :
    s' = s ∨ ∃ path, c = .delete path ∧ s' = { s with objects := s.objects.erase path } := by
  have hread : ∀ {β : Type} {v : TeoDBResult β} {r : TeoDBResult β},
      readAnswer ch s v = some (r, s') → s' = s := by
    intro β v r hr
    cases ch with
    | succeeds | fails _ =>
      cases hr
      rfl
    | _ => cases hr
  cases c with
  | loadRetainedFilePaths ret pinned =>
    cases ch with
    | clock _ | fails _ =>
      cases h
      exact .inl rfl
    | _ => cases h
  | now =>
    cases ch with
    | now _ =>
      cases h
      exact .inl rfl
    | _ => cases h
  | delete path =>
    cases ch with
    | succeeds =>
      cases h
      exact .inr ⟨path, rfl, rfl⟩
    | fails e =>
      cases h
      exact .inl rfl
    | lost e =>
      cases h
      exact .inr ⟨path, rfl, rfl⟩
    | _ => cases h
  | _ => exact .inl (hread h)

lemma viewedAnswer_eq_some {ch : StoreChoice P} {c : SweepCall} {a : SweepAnswer c}
    (h : viewedAnswer ch task s c = some (a, s')) :
    ∃ t, storeAnswer ch s c = some (a, t) ∧
      s' = { t with view := Function.update s.view task ((s.view task).afterAnswer c a) } := by
  obtain ⟨⟨b, t⟩, han, heq⟩ := Option.map_eq_some_iff.mp h
  obtain ⟨rfl, rfl⟩ := Prod.mk.inj heq
  exact ⟨t, han, rfl⟩

/-- Erasing a key that no sidecar lists keeps the listed ones. -/
lemma filesPresent_erase {path : String} (h : s.FilesPresent) (hp : path ∉ s.namedKeys) :
    StoreState.FilesPresent { s with objects := s.objects.erase path } := by
  intro key hkey
  have hne : key ≠ path := by
    rintro rfl
    exact hp hkey
  change ((s.objects.erase path).find? key).isSome
  rw [OrdMap.find?_erase, if_neg hne]
  exact h key hkey

/-- What others do lists no new key but those of a sidecar that is written. -/
lemma actByOthers_named {ch : StoreChoice P} (h : actByOthers ch s = some s') :
    s'.view = s.view ∧ ∀ key ∈ s'.namedKeys, key ∈ s.namedKeys ∨
      ∃ node it, ch = .persist node it ∧ key ∈ intentKeys it := by
  have hfil : ∀ node key, key ∈ (s.sidecars.filter fun sc => sc.1 ≠ node).flatMap
      (fun sc => intentKeys sc.2) → key ∈ s.namedKeys := by
    intro node key hkey
    obtain ⟨sc, hsc, hkey⟩ := List.mem_flatMap.mp hkey
    exact List.mem_flatMap.mpr ⟨sc, (List.mem_filter.mp hsc).1, hkey⟩
  cases ch with
  | persist node it =>
    cases h
    refine ⟨rfl, fun key hkey => ?_⟩
    simp only [StoreState.namedKeys, List.flatMap_append, List.mem_append] at hkey
    rcases hkey with hkey | hkey
    · exact .inl (hfil node key hkey)
    · exact .inr ⟨node, it, rfl, by simpa using hkey⟩
  | removeSidecar node =>
    cases h
    exact ⟨rfl, fun key hkey => .inl (hfil node key hkey)⟩
  | upload _ _ | commit _ | pin _ =>
    cases h
    exact ⟨rfl, fun key hkey => .inl hkey⟩
  | _ => cases h

lemma actByOthers_objects {ch : StoreChoice P} (h : actByOthers ch s = some s')
    {key : String} (hkey : (s.objects.find? key).isSome) : (s'.objects.find? key).isSome := by
  cases ch with
  | upload path lm =>
    cases h
    change ((s.objects.insert path lm).find? key).isSome
    rw [OrdMap.find?_insert]
    split_ifs
    · rfl
    · exact hkey
  | persist _ _ | removeSidecar _ | commit _ | pin _ =>
    cases h
    exact hkey
  | _ => cases h

lemma mem_doomedKeys {cfg : SweepConfig P} {j : Nat}
    {t : Cluster.Task sweepInterface (StoreState P) TeoDBError SweepReport OrphanSweeper}
    (ht : cfg.tasks[j]? = some t) {key : String}
    (hkey : key ∈ (cfg.state.view j).doomed t.origin.minAge) : key ∈ doomedKeys cfg := by
  refine List.mem_flatMap.mpr ⟨(t, j), ?_, hkey⟩
  exact List.mem_zipIdx_iff_getElem?.mpr ht

lemma sweeps_sound : (sweeps (P := P)).Sound SparesIntents (fun _ => StoreState.FilesPresent)
    sweepSetting (fun _ _ _ _ => True) where
  start _ hs := hs.present
  refl _ _ _ := ⟨rfl, fun _ _ h => h⟩
  trans _ _ _ _ _ hab hbc := ⟨hbc.1.trans hab.1,
    fun key hkey hnm => hab.2 key hkey (hbc.2 key (hab.1 ▸ hkey) hnm)⟩
  stable _ _ _ _ _ _ _ := trivial
  spawn _ _ _ hs := ⟨hs, sweep_spares⟩
  answer := by
    intro cfg i sweeper c k ch a s' hg hinv htask hvis ha
    obtain ⟨t, han, rfl⟩ := viewedAnswer_eq_some ha
    have hnow : c = .now → ∀ key ∈ cfg.state.namedKeys,
        key ∉ ((cfg.state.view i).afterAnswer c a).doomed sweeper.minAge := by
      rintro rfl
      cases ch with
      | now now =>
        cases han
        exact hg sweeper (by simp [readingClock, htask])
      | _ => cases han
    have hans : Function.update cfg.state.view i ((cfg.state.view i).afterAnswer c a) i =
        (cfg.state.view i).afterAnswer c a := Function.update_self ..
    obtain rfl | ⟨path, rfl, rfl⟩ := storeAnswer_frame han
    · refine ⟨hinv, ⟨hans, rfl, fun hc key hkey => ?_⟩, fun j q hne _ => ?_⟩
      · change key ∉ SweepView.doomed _ (Function.update cfg.state.view i _ i)
        rw [Function.update_self]
        exact hnow hc key hkey
      · exact ⟨Function.update_of_ne hne _ _, fun _ _ h => h⟩
    · refine ⟨filesPresent_erase hinv (hvis path rfl), ⟨hans, rfl, (by simp)⟩, ?_⟩
      exact fun j q hne _ => ⟨Function.update_of_ne hne _ _, fun _ _ h => h⟩
  interfere := by
    intro cfg ch s' hg hinv hs'
    obtain ⟨hv, hnm⟩ := actByOthers_named hs'
    constructor
    · intro key hkey
      apply actByOthers_objects hs'
      rcases hnm key hkey with hkey | ⟨node, it, rfl, hkey⟩
      · exact hinv key hkey
      · exact (hg key hkey).1
    · intro j t ht
      refine ⟨congrFun hv j, fun key hdoo hkey => ?_⟩
      rcases hnm key hkey with hkey | ⟨node, it, rfl, hkey⟩
      · exact hkey
      · exact absurd (mem_doomedKeys ht hdoo) (hg key hkey).2

/-- When sweeps find the files of sidecars recorded or too young, and sidecars are written while
their files are safe, the files of every sidecar stay. -/
theorem intent_files_never_swept {cfg : SweepConfig P}
    (run : sweeps.machine.ReachableIf SparesIntents cfg) {node : Nat}
    {intent : PreparedFlush (DataFile P)} (hsidecar : (node, intent) ∈ cfg.state.sidecars)
    {file : DataFile P} (hfile : file ∈ intent.dataFiles) :
    (cfg.state.objects.find? file.path.key).isSome := by
  have hpre : cfg.state.FilesPresent := (sweeps_sound.safe run).inv
  apply hpre
  exact List.mem_flatMap.mpr ⟨(node, intent), hsidecar, List.mem_map_of_mem hfile⟩

end

/-- An intent with one data file. -/
def blockedIntent : PreparedFlush (DataFile Unit) :=
  PreparedFlush.new ordersTable (Uuid.ofNat 7) ⟨Uuid.ofNat 1⟩ ⟨1⟩ ⟨Uuid.ofNat 9⟩ ⟨1, 2⟩ 2 0
    [⟨.data, ⟨.s3, some "lake", "orders/data/a"⟩, 0, (), 1, 10⟩] none

/-- A table without snapshots and an empty store. -/
def emptyStore : StoreState Unit where
  table := ⟨Uuid.ofNat 7, "s3://lake/orders", none, [], OrdMap.empty⟩
  pins := []
  objects := OrdMap.empty
  sidecars := []
  view _ := .initial

lemma emptyStore_start : sweeps.machine.start ⟨emptyStore, []⟩ :=
  ⟨⟨fun _ hkey => absurd hkey List.not_mem_nil, fun _ => rfl⟩, rfl⟩

/-- A sweeper that spares what is younger than an hour. -/
def hourSweeper : OrphanSweeper := ⟨3600000000000, none⟩

/-- The file is uploaded, the intent is written and stays, and a sweep runs up to its
reading of the clock. -/
def blockThenSweep : List (Cluster.Turn OrphanSweeper (StoreChoice Unit)) :=
  [.interfere (.upload "orders/data/a" 0), .interfere (.persist 1 blockedIntent),
    .spawn hourSweeper, .answer 0 .succeeds, .answer 0 .succeeds, .answer 0 .succeeds,
    .answer 0 .succeeds, .answer 0 .succeeds]

/-- The keys that sidecars list, and those that are in the store. -/
def storeObserved (cfg : SweepConfig Unit) : List String × List String :=
  (cfg.state.namedKeys, cfg.state.objects.keys)

/-- A sweep within the hour leaves the file. -/
theorem intent_files_never_swept_withinTheHour :
    ∃ cfg : SweepConfig Unit, sweeps.machine.ReachableIf SparesIntents cfg ∧
      storeObserved cfg = (["orders/data/a"], ["orders/data/a"]) ∧
      (cfg.state.objects.find? "orders/data/a").isSome := by
  have hrun : ((sweeps.machine.guarded SparesIntents).exec ⟨emptyStore, []⟩
      (blockThenSweep ++ [.answer 0 (.now 1800000000000)])).map storeObserved =
      some (["orders/data/a"], ["orders/data/a"]) := by
    decide +kernel
  obtain ⟨cfg, hrch, hobs⟩ := Machine.existsIf_of_exec emptyStore_start hrun
  have hnm : "orders/data/a" ∈ cfg.state.namedKeys := by
    rw [(Prod.mk.inj hobs).1]
    exact List.mem_singleton_self _
  obtain ⟨⟨node, intent⟩, hsc, hkey⟩ := List.mem_flatMap.mp hnm
  obtain ⟨file, hf, hp⟩ := List.mem_map.mp hkey
  refine ⟨cfg, hrch, hobs, ?_⟩
  rw [← hp]
  exact intent_files_never_swept hrch hsc hf

/-- After the hour a sweep deletes the file of the intent, whose sidecar is still there. -/
theorem blocked_intent_swept : ∃ cfg : SweepConfig Unit, sweeps.machine.Reachable cfg ∧
      storeObserved cfg = (["orders/data/a"], []) := by
  have hrun : (sweeps.machine.exec ⟨emptyStore, []⟩
      (blockThenSweep ++ [.answer 0 (.now 7200000000000), .answer 0 .succeeds])).map
      storeObserved = some (["orders/data/a"], []) := by
    decide +kernel
  exact Machine.exists_of_exec emptyStore_start hrun

end TeoDB.Distributed

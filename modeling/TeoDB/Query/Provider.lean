import TeoDB.Catalog.Manifests
import TeoDB.Lib.Tasks

/-!
# Table providers

A provider is metadata with the live files of its current snapshot. Metadata and files come from
two loads of the table, while other nodes commit. The files are those of the snapshot that the
provider reports if both loads have found the same current snapshot.

## Implementation notes

Commits add a snapshot under an identifier that is new to the history. `seen` is a ghost: the
current snapshot that a task's last load has found. A load can fail with any error.
-/

namespace TeoDB.Query

open TeoDB.Core Lib Catalog Storage.Wal Async

/-- The current snapshot of a provider with its files. -/
structure ProviderSnapshot (P : Type) where
  snapshotId : Int
  dataFiles : List (DataFile P)
  deleteFiles : List (DataFile P)
deriving DecidableEq

structure ProviderMetadata (P : Type) where
  ident : TableIdent
  currentSnapshot : Option (ProviderSnapshot P)
deriving DecidableEq

section

variable {P : Type}

/-- The metadata that a load gives, without files. -/
def providerMetadata (ident : TableIdent) (t : IcebergTable P) : ProviderMetadata P where
  ident := ident
  currentSnapshot := t.currentSnapshot.map fun snapshot => ⟨snapshot.snapshotId, [], []⟩

/-- Attach live files to the current snapshot. -/
def ProviderMetadata.withLiveFiles (m : ProviderMetadata P) (files : List (DataFile P)) :
    TeoDBResult (ProviderMetadata P) :=
  let dataFiles := files.filter fun file => file.content = .data
  let deleteFiles := files.filter fun file => ¬ file.content = .data
  match m.currentSnapshot with
  | some snapshot => .ok { m with
      currentSnapshot := some { snapshot with dataFiles := dataFiles, deleteFiles := deleteFiles } }
  | none =>
    if dataFiles = [] ∧ deleteFiles = [] then .ok m
    else .error (.metadataCorruption m.ident
      "catalog returned live files for a table without a current snapshot")

def ProviderMetadata.currentSnapshotId (m : ProviderMetadata P) : Option Int :=
  m.currentSnapshot.map ProviderSnapshot.snapshotId

end

/-- `metadataFirst` says which of two concurrent loads the catalog answers first. -/
inductive ReaderCall (P : Type) where
  | loadTable
  | listLive (t : IcebergTable P)
  | metadataFirst

def ReaderAnswer (P : Type) : ReaderCall P → Type
  | .loadTable => TeoDBResult (IcebergTable P)
  | .listLive _ => TeoDBResult (List (LoadedIcebergDataFile P))
  | .metadataFirst => Bool

def readerInterface (P : Type) : Interface := ⟨Empty, ReaderCall P, ReaderAnswer P⟩

structure ReaderState (P : Type) where
  table : IcebergTable P
  seen : Nat → Option (Option Int)

inductive ReaderChoice (P : Type) where
  | succeeds
  | fails (error : TeoDBError)
  | metadataFirst (first : Bool)
  | commit (snapshot : IcebergSnapshot P)
  | setProperties (properties : Properties)

section

variable {P : Type} (codec : PathsCodec)

def readerAnswer (choice : ReaderChoice P) (task : Nat) (s : ReaderState P) :
    (c : ReaderCall P) → Option (ReaderAnswer P c × ReaderState P)
  | .loadTable =>
    match choice with
    | .succeeds => some (.ok s.table, { s with
        seen := Function.update s.seen task (some s.table.currentSnapshotId) })
    | .fails error => some (.error error, s)
    | _ => none
  | .listLive t =>
    match choice with
    | .succeeds => (t.liveDataFiles codec).map fun live => (live, s)
    | .fails error => some (.error error, s)
    | _ => none
  | .metadataFirst =>
    match choice with
    | .metadataFirst first => some (first, s)
    | _ => none

/-- Another node commits a snapshot on top of the current one, or sets properties. -/
def commitByOthers (choice : ReaderChoice P) (s : ReaderState P) : Option (ReaderState P) :=
  match choice with
  | .commit snapshot =>
    if s.table.snapshotById snapshot.snapshotId = none ∧
        snapshot.parentSnapshotId = s.table.currentSnapshotId then
      some { s with table := { s.table with
        currentSnapshotId := some snapshot.snapshotId
        snapshots := s.table.snapshots ++ [snapshot] } }
    else none
  | .setProperties properties =>
    some { s with table := { s.table with properties := properties } }
  | _ => none

end

section

variable {P : Type} (ident : TableIdent)

abbrev ReaderProg (P ε α : Type) := Async (readerInterface P) (ReaderState P) ε α

def loadIcebergTable : ReaderProg P TeoDBError (IcebergTable P) := do
  let loaded ← request (I := readerInterface P) .loadTable
  lift loaded

def loadTable : ReaderProg P TeoDBError (ProviderMetadata P) := do
  let t ← loadIcebergTable
  pure (providerMetadata ident t)

def loadLiveFiles : ReaderProg P TeoDBError (List (DataFile P)) := do
  let t ← loadIcebergTable
  let live ← request (I := readerInterface P) (.listLive t)
  let files ← lift live
  lift (icebergDataFilesToTeodb files)

/-- Resolve a table for a query; a table that does not exist has no provider. -/
def loadProvider : ReaderProg P TeoDBError (Option (ProviderMetadata P)) := do
  let loaded ← (loadTable ident).attempt
  match loaded with
  | .error (.notFound _) => pure none
  | .error error => throw error
  | .ok metadata => do
    let files ← loadLiveFiles
    let fresh ← lift (metadata.withLiveFiles files)
    pure (some fresh)

def callMetadataFirst {ε : Type} : ReaderProg P ε Bool :=
  request (I := readerInterface P) .metadataFirst

/-- Load metadata and files at the same time. -/
def joinLoads : ReaderProg P TeoDBError (ProviderMetadata P × List (DataFile P)) := do
  let metadataFirst ← callMetadataFirst
  if metadataFirst then do
    let metadata ← loadTable ident
    let files ← loadLiveFiles
    pure (metadata, files)
  else do
    let files ← loadLiveFiles
    let metadata ← loadTable ident
    pure (metadata, files)

def refresh : ReaderProg P TeoDBError (Option (ProviderMetadata P)) := do
  let loads ← joinLoads ident
  let fresh ← lift (loads.1.withLiveFiles loads.2)
  pure (some fresh)

inductive ReaderProgram where
  | loadProvider
  | refresh
deriving DecidableEq

def readerProgram : ReaderProgram → ReaderProg P TeoDBError (Option (ProviderMetadata P))
  | .loadProvider => loadProvider ident
  | .refresh => refresh ident

variable (codec : PathsCodec)

/-- Any table whose current snapshot is in its history. -/
structure ReaderState.Start (s : ReaderState P) : Prop where
  current : ∀ id ∈ s.table.currentSnapshotId, (s.table.snapshotById id).isSome
  seen_eq : ∀ task, s.seen task = none

/-- Queries of one node that resolve and refresh providers while others commit. -/
def readers : Cluster (readerInterface P) (ReaderState P) TeoDBError
    (Option (ProviderMetadata P)) ReaderProgram (ReaderChoice P) where
  start := ReaderState.Start
  program := readerProgram ident
  answer := readerAnswer codec
  interfere := commitByOthers

end

section

variable {P : Type}

/-- The files are the live files of the snapshot, as the table has them. -/
def ShowsSnapshot (codec : PathsCodec) (t : IcebergTable P) (snapshot : ProviderSnapshot P) :
    Prop :=
  ∃ live files, t.liveDataFilesOf codec (some snapshot.snapshotId) = some (.ok live) ∧
    icebergDataFilesToTeodb live = .ok files ∧
    snapshot.dataFiles = files.filter (fun file => file.content = .data) ∧
    snapshot.deleteFiles = files.filter (fun file => ¬ file.content = .data)

/-- The provider shows the snapshot that it reports, which is in the history. -/
def Consistent (codec : PathsCodec) (t : IcebergTable P) (m : ProviderMetadata P) : Prop :=
  ∀ snapshot ∈ m.currentSnapshot,
    (t.snapshotById snapshot.snapshotId).isSome ∧ ShowsSnapshot codec t snapshot

variable {codec : PathsCodec} {ident : TableIdent} {t t' : IcebergTable P}

lemma Consistent.grows {m : ProviderMetadata P} (h : Consistent codec t m) (hgro : Grows t t') :
    Consistent codec t' m := by
  intro sn hsn
  obtain ⟨hfound, live, fs, hl, hfs⟩ := h sn hsn
  obtain ⟨found, hf⟩ := Option.isSome_iff_exists.mp hfound
  refine ⟨?_, live, fs, hgro.liveDataFilesOf hf hl, hfs⟩
  rw [hgro.snapshotById hf]
  rfl

/-- Metadata and live files of two versions with one current snapshot make a consistent provider. -/
lemma consistent_withLiveFiles {fresh : ProviderMetadata P}
    {live : List (LoadedIcebergDataFile P)} {fs : List (DataFile P)} {now : IcebergTable P}
    (hs : t.currentSnapshotId = t'.currentSnapshotId) (hgrows : Grows t now)
    (hgrows' : Grows t' now) (hcur : ∀ id ∈ t'.currentSnapshotId, (t'.snapshotById id).isSome)
    (hl : t'.liveDataFiles codec = some (.ok live)) (hfs : icebergDataFilesToTeodb live = .ok fs)
    (hfr : (providerMetadata ident t).withLiveFiles fs = .ok fresh) :
    Consistent codec now fresh := by
  intro sn hsn
  cases hm : t.currentSnapshot with
  | none =>
    simp only [ProviderMetadata.withLiveFiles, providerMetadata, hm, Option.map_none] at hfr
    split_ifs at hfr
    cases hfr
    cases hsn
  | some fd =>
    simp only [ProviderMetadata.withLiveFiles, providerMetadata, hm, Option.map_some,
      Except.ok.injEq] at hfr
    subst hfr
    cases hsn
    obtain ⟨id, hid, hf⟩ := Option.bind_eq_some_iff.mp hm
    have hfou : fd.snapshotId = id := by
      simpa [IcebergTable.snapshotById] using List.find?_some hf
    have hid' : t'.currentSnapshotId = some id := hs.symm.trans hid
    obtain ⟨found', hf'⟩ := Option.isSome_iff_exists.mp (hcur id hid')
    have hl' : t'.liveDataFilesOf codec (some id) = some (.ok live) := by
      rw [← hid']
      exact hl
    subst hfou
    refine ⟨?_, live, fs, hgrows'.liveDataFilesOf hf' hl', hfs, rfl, rfl⟩
    rw [hgrows.snapshotById hf]
    rfl

/-- What a task that waits for a load has found with its load before that. -/
def foundBefore {ε R Q : Type} (cfg : Cluster.Config (readerInterface P) (ReaderState P) ε R Q)
    (task : Nat) : Option (Option Int) :=
  match cfg.tasks[task]? with
  | some ⟨_, .call .loadTable _⟩ => cfg.state.seen task
  | _ => none

/-- The second load of a task finds the current snapshot of the first. -/
def SameSnapshot {ε R Q : Type} (cfg : Cluster.Config (readerInterface P) (ReaderState P) ε R Q) :
    Cluster.Turn Q (ReaderChoice P) → Prop
  | .answer task .succeeds =>
    ∀ current ∈ foundBefore cfg task, cfg.state.table.currentSnapshotId = current
  | _ => True

instance {ε R Q : Type} (cfg : Cluster.Config (readerInterface P) (ReaderState P) ε R Q)
    (turn : Cluster.Turn Q (ReaderChoice P)) : Decidable (SameSnapshot cfg turn) :=
  match turn with
  | .answer task .succeeds => inferInstanceAs (Decidable (∀ current ∈ foundBefore cfg task, _))
  | .answer _ (.fails _) | .answer _ (.metadataFirst _) | .answer _ (.commit _)
  | .answer _ (.setProperties _) | .spawn _ | .interfere _ => .isTrue trivial

/-- What a task learns from its answers under the condition. -/
def ReaderAnswers (codec : PathsCodec) (task : Nat) (s : ReaderState P) :
    (c : ReaderCall P) → ReaderAnswer P c → ReaderState P → Prop
  | .loadTable, .ok t, s' => t = s.table ∧ s'.table = s.table ∧
      s'.seen task = some t.currentSnapshotId ∧
      (∀ current ∈ s.seen task, t.currentSnapshotId = current) ∧
      ∀ id ∈ t.currentSnapshotId, (t.snapshotById id).isSome
  | .listLive t, .ok live, s' => s' = s ∧ t.liveDataFiles codec = some (.ok live)
  | _, _, s' => s' = s

/-- The setting of a task: the history grows, and what the task has seen is its own. -/
def readerSetting (codec : PathsCodec) (task : Nat) :
    Setting (readerInterface P) (ReaderState P) where
  visible _ _ := True
  interferes s s' := Grows s.table s'.table ∧ s'.seen task = s.seen task
  answers := ReaderAnswers codec task

/-- The result of a task is consistent with the table as it is now. -/
def ReaderResult (codec : PathsCodec) :
    Except TeoDBError (Option (ProviderMetadata P)) → ReaderState P → Prop
  | .ok (some m), s => Consistent codec s.table m
  | _, _ => True

variable {task : Nat} {s s' : ReaderState P}

/-- The task has loaded a version of the table, with its current snapshot. -/
structure Loaded (task : Nat) (t : IcebergTable P) (s : ReaderState P) : Prop where
  grows : Grows t s.table
  seen : s.seen task = some t.currentSnapshotId
  current : ∀ id ∈ t.currentSnapshotId, (t.snapshotById id).isSome

/-- What the task has loaded before, if anything. -/
def LoadedBefore (task : Nat) (prior : Option (IcebergTable P)) (s : ReaderState P) : Prop :=
  ∀ t ∈ prior, Loaded task t s

/-- A version that was loaded after the prior one has the same current snapshot. -/
structure LoadedAfter (task : Nat) (prior : Option (IcebergTable P)) (t : IcebergTable P)
    (s : ReaderState P) : Prop where
  loaded : Loaded task t s
  grows : ∀ t₀ ∈ prior, Grows t₀ s.table
  same : ∀ t₀ ∈ prior, t.currentSnapshotId = t₀.currentSnapshotId

lemma LoadedAfter.before {prior : Option (IcebergTable P)} (h : LoadedAfter task prior t s) :
    LoadedBefore task (some t) s := by
  rintro _ ⟨⟩
  exact h.loaded

/-- The files are the live files of a version of the table. -/
def FilesOf (codec : PathsCodec) (t : IcebergTable P) (files : List (DataFile P)) : Prop :=
  ∃ live, t.liveDataFiles codec = some (.ok live) ∧ icebergDataFilesToTeodb live = .ok files

variable {prior : Option (IcebergTable P)}

lemma loaded_stable : (readerSetting codec task).Stable (Loaded (P := P) task t) := by
  intro s s' hs hss'
  exact ⟨hs.grows.trans hss'.1, hss'.2.trans hs.seen, hs.current⟩

lemma loadedBefore_stable :
    (readerSetting codec task).Stable (LoadedBefore (P := P) task prior) :=
  fun s s' hs hss' t ht => loaded_stable s s' (hs t ht) hss'

lemma loadedAfter_stable :
    (readerSetting codec task).Stable (LoadedAfter (P := P) task prior t) :=
  fun s s' hs hss' => ⟨loaded_stable s s' hs.loaded hss',
    fun t₀ ht₀ => (hs.grows t₀ ht₀).trans hss'.1, hs.same⟩

lemma loadIcebergTable_after (h : LoadedBefore task prior s) :
    wp (readerSetting codec task) (ends (LoadedAfter task prior) fun _ => True)
      loadIcebergTable s := by
  refine wp_request_bind_of loadedBefore_stable h fun s hs => ⟨trivial, ?_⟩
  intro ld s' han
  cases ld with
  | error e => trivial
  | ok t =>
    obtain ⟨rfl, htb, hseen, hsame, hcur⟩ := han
    refine ⟨⟨htb ▸ Grows.refl _, hseen, hcur⟩, ?_, ?_⟩
    · exact fun t₀ ht₀ => htb ▸ (hs t₀ ht₀).grows
    · exact fun t₀ ht₀ => hsame _ (hs t₀ ht₀).seen

variable (prior) in
lemma loadTable_after (h : LoadedBefore task prior s) : wp (readerSetting codec task)
      (ends (fun m s => ∃ t, m = providerMetadata ident t ∧ LoadedAfter task prior t s)
        fun _ => True) (loadTable ident) s :=
  wp_bind_of (loadIcebergTable_after h) fun t _ ht => ⟨t, rfl, ht⟩

variable (prior) in
lemma loadLiveFiles_after (h : LoadedBefore task prior s) : wp (readerSetting codec task)
      (ends (fun fs s => ∃ t, FilesOf codec t fs ∧ LoadedAfter task prior t s)
        fun _ => True) loadLiveFiles s := by
  refine wp_bind_of (loadIcebergTable_after h) fun t s ht => ?_
  refine wp_request_bind_of loadedAfter_stable ht fun s ht => ⟨trivial, ?_⟩
  intro ls s' han
  cases ls with
  | error e => trivial
  | ok live =>
    obtain ⟨rfl, hl⟩ := han
    show ends _ _ (icebergDataFilesToTeodb live) s'
    cases hfs : icebergDataFilesToTeodb live with
    | error e => trivial
    | ok fs => exact ⟨t, ⟨live, hl, hfs⟩, ht⟩

/-- Metadata and files of two loads of a task make a consistent provider. -/
lemma consistent_of_loads {tm tf : IcebergTable P} {fs : List (DataFile P)}
    {fresh : ProviderMetadata P} (hs : tm.currentSnapshotId = tf.currentSnapshotId)
    (hm : Grows tm s.table) (hfs : FilesOf codec tf fs) (hgrows : Grows tf s.table)
    (hcur : ∀ id ∈ tf.currentSnapshotId, (tf.snapshotById id).isSome)
    (hfr : (providerMetadata ident tm).withLiveFiles fs = .ok fresh) :
    Consistent codec s.table fresh := by
  obtain ⟨live, hl, hcon⟩ := hfs
  exact consistent_withLiveFiles hs hm hgrows hcur hl hcon hfr

lemma loadProvider_result :
    wp (readerSetting codec task) (ReaderResult codec) (loadProvider (P := P) ident) s := by
  refine wp_bind.mpr (wp_attempt.mpr (wp_mono ?_ (loadTable_after none fun _ h => by cases h)))
  intro ld s he
  cases ld with
  | error e => cases e <;> trivial
  | ok md =>
    obtain ⟨tm, rfl, htm⟩ := he
    refine wp_bind_of (loadLiveFiles_after (some tm) htm.before) ?_
    rintro files s ⟨tf, hfs, htf⟩
    refine wp_lift_bind (fun fresh hfr => ?_) fun _ _ => trivial
    exact consistent_of_loads (htf.same tm rfl).symm (htf.grows tm rfl) hfs htf.loaded.grows
      htf.loaded.current hfr

/-- The two versions that concurrent loads give, in either order. -/
lemma joinLoads_pair : wp (readerSetting codec task)
      (ends (fun loads s => ∃ tm tf : IcebergTable P, loads.1 = providerMetadata ident tm ∧
        FilesOf codec tf loads.2 ∧ tm.currentSnapshotId = tf.currentSnapshotId ∧
        Grows tm s.table ∧ Grows tf s.table ∧
        ∀ id ∈ tf.currentSnapshotId, (tf.snapshotById id).isSome) fun _ => True)
      (joinLoads ident) s := by
  refine wp_request_bind_of (P := fun _ => True) (fun _ _ _ _ => trivial) trivial
    fun s _ => ⟨trivial, ?_⟩
  rintro metadataFirst s' _
  cases metadataFirst with
  | true =>
    refine wp_bind_of (loadTable_after none fun _ h => by cases h) ?_
    rintro _ s ⟨tm, rfl, htm⟩
    refine wp_bind_of (loadLiveFiles_after (some tm) htm.before) ?_
    rintro fs s ⟨tf, hfs, htf⟩
    exact ⟨tm, tf, rfl, hfs, (htf.same tm rfl).symm, htf.grows tm rfl, htf.loaded.grows,
      htf.loaded.current⟩
  | false =>
    refine wp_bind_of (loadLiveFiles_after none fun _ h => by cases h) ?_
    rintro fs s ⟨tf, hfs, htf⟩
    refine wp_bind_of (loadTable_after (some tf) htf.before) ?_
    rintro _ s ⟨tm, rfl, htm⟩
    exact ⟨tm, tf, rfl, hfs, htm.same tf rfl, htm.loaded.grows, htm.grows tf rfl,
      htf.loaded.current⟩

lemma refresh_result :
    wp (readerSetting codec task) (ReaderResult codec) (refresh (P := P) ident) s := by
  refine wp_bind_of joinLoads_pair ?_
  rintro ⟨md, files⟩ s ⟨tm, tf, rfl, hfs, hs, hm, hgrows, hcur⟩
  refine wp_lift_bind (fun fresh hfr => ?_) fun _ _ => trivial
  exact consistent_of_loads hs hm hfs hgrows hcur hfr

/-- The current snapshot is in the history. -/
def CurrentFound (s : ReaderState P) : Prop :=
  ∀ id ∈ s.table.currentSnapshotId, (s.table.snapshotById id).isSome

lemma commitByOthers_grows {ch : ReaderChoice P} (hinv : CurrentFound s)
    (h : commitByOthers ch s = some s') :
    CurrentFound s' ∧ Grows s.table s'.table ∧ s'.seen = s.seen := by
  cases ch with
  | commit sn =>
    simp only [commitByOthers] at h
    split_ifs at h with hnew
    cases h
    refine ⟨?_, ⟨List.prefix_append _ _⟩, rfl⟩
    rintro id ⟨⟩
    simp [IcebergTable.snapshotById]
  | setProperties props =>
    cases h
    exact ⟨hinv, ⟨List.prefix_rfl⟩, rfl⟩
  | _ => cases h

lemma readerAnswers_of_answer {ch : ReaderChoice P} {c : ReaderCall P}
    {a : ReaderAnswer P c} (hinv : CurrentFound s)
    (hs : c = .loadTable → ch = .succeeds → ∀ cur ∈ s.seen task, s.table.currentSnapshotId = cur)
    (h : readerAnswer codec ch task s c = some (a, s')) :
    ReaderAnswers codec task s c a s' ∧ s'.table = s.table ∧
      ∀ j, j ≠ task → s'.seen j = s.seen j := by
  cases c with
  | loadTable =>
    cases ch with
    | succeeds =>
      cases h
      refine ⟨⟨rfl, rfl, Function.update_self .., hs rfl rfl, hinv⟩, rfl, ?_⟩
      exact fun j hj => Function.update_of_ne hj _ _
    | fails e =>
      cases h
      exact ⟨rfl, rfl, fun _ _ => rfl⟩
    | _ => cases h
  | listLive t =>
    cases ch with
    | succeeds =>
      obtain ⟨live, hl, heq⟩ := Option.map_eq_some_iff.mp h
      obtain ⟨rfl, rfl⟩ := Prod.mk.inj heq
      refine ⟨?_, rfl, fun _ _ => rfl⟩
      cases live with
      | ok files => exact ⟨rfl, hl⟩
      | error e => rfl
    | fails e =>
      cases h
      exact ⟨rfl, rfl, fun _ _ => rfl⟩
    | _ => cases h
  | metadataFirst =>
    cases ch with
    | metadataFirst first =>
      cases h
      exact ⟨rfl, rfl, fun _ _ => rfl⟩
    | _ => cases h

lemma readers_sound : (readers (P := P) ident codec).Sound SameSnapshot
    (fun _ => CurrentFound) (fun i _ => readerSetting codec i) (fun _ _ => ReaderResult codec) where
  start _ hs := hs.current
  refl _ _ _ := ⟨Grows.refl _, rfl⟩
  trans _ _ _ _ _ hab hbc := ⟨hab.1.trans hbc.1, hbc.2.trans hab.2⟩
  stable := by
    rintro i p (error | m) s s' hr hss'
    · trivial
    · cases m with
      | none => trivial
      | some m => exact Consistent.grows hr hss'.1
  spawn i p s hs := by
    refine ⟨hs, ?_⟩
    cases p with
    | loadProvider => exact loadProvider_result
    | refresh => exact refresh_result
  answer := by
    intro cfg i p c k ch a s' hg hinv ht _ ha
    have hsame : c = .loadTable → ch = .succeeds →
        ∀ cur ∈ cfg.state.seen i, cfg.state.table.currentSnapshotId = cur := by
      rintro rfl rfl
      simpa [SameSnapshot, foundBefore, ht] using hg
    obtain ⟨hans, htb, hse⟩ := readerAnswers_of_answer hinv hsame ha
    refine ⟨?_, hans, fun j _ hne _ => ⟨htb ▸ Grows.refl _, hse j hne⟩⟩
    unfold CurrentFound
    rw [htb]
    exact hinv
  interfere := by
    intro cfg ch s' _ hinv hs'
    obtain ⟨hinv', hgrows, hse⟩ := commitByOthers_grows hinv hs'
    exact ⟨hinv', fun j _ _ => ⟨hgrows, congrFun hse j⟩⟩

/-- When the second load of a task finds the current snapshot of the first, every provider shows the
live files of the snapshot that it reports. -/
theorem provider_files_of_snapshot (codec : PathsCodec) (ident : TableIdent)
    {cfg : Cluster.Config (readerInterface P) (ReaderState P) TeoDBError
      (Option (ProviderMetadata P)) ReaderProgram}
    (run : (readers ident codec).machine.ReachableIf SameSnapshot cfg) {task : Nat}
    {program : ReaderProgram} {m : ProviderMetadata P}
    (hresult : cfg.result task = some (program, .ok (some m))) :
    ∀ snapshot ∈ m.currentSnapshot, ShowsSnapshot codec cfg.state.table snapshot :=
  fun snapshot hsnapshot =>
    ((readers_sound.safe run).result hresult snapshot hsnapshot).2

end

/-- A snapshot that supersedes nothing. -/
def ordersSnapshot (id : Int) (parent : Option Int) (manifests : List (Manifest Unit)) :
    IcebergSnapshot Unit where
  snapshotId := id
  parentSnapshotId := parent
  timestampMs := id
  summary := OrdMap.empty
  manifestList := manifests

def ordersManifest (name : String) : Manifest Unit where
  manifestPath := name ++ ".avro"
  partitionSpecId := 0
  entries := [⟨true, ⟨.data, "s3://lake/orders/data/" ++ name, (), 1, 10⟩⟩]

def firstOrders : IcebergSnapshot Unit := ordersSnapshot 1 none [ordersManifest "a"]

def secondOrders : IcebergSnapshot Unit :=
  ordersSnapshot 2 (some 1) [ordersManifest "a", ordersManifest "b"]

def ordersReaders : ReaderState Unit where
  table := ⟨Uuid.ofNat 7, "s3://lake/orders", some 1, [firstOrders], OrdMap.empty⟩
  seen _ := none

lemma ordersReaders_start {ident : TableIdent} {codec : PathsCodec} :
    (readers ident codec).machine.start ⟨ordersReaders, []⟩ :=
  ⟨⟨by rintro id ⟨⟩; rfl, fun _ => rfl⟩, rfl⟩

/-- What the provider of a finished task reports, and the files that it scans. -/
def shown (cfg : Cluster.Config (readerInterface Unit) (ReaderState Unit) TeoDBError
    (Option (ProviderMetadata Unit)) ReaderProgram) (task : Nat) : Option (Int × List String) :=
  match cfg.result task with
  | some (_, .ok (some ⟨_, some snapshot⟩)) =>
    some (snapshot.snapshotId, snapshot.dataFiles.map fun file => file.path.toUri)
  | _ => none

lemma result_of_shown {cfg : Cluster.Config (readerInterface Unit) (ReaderState Unit) TeoDBError
    (Option (ProviderMetadata Unit)) ReaderProgram} {task : Nat} {id : Int} {fs : List String}
    (h : shown cfg task = some (id, fs)) :
    ∃ program ident sn, cfg.result task = some (program, .ok (some ⟨ident, some sn⟩)) ∧
      sn.snapshotId = id ∧ (sn.dataFiles.map fun file => file.path.toUri) = fs := by
  unfold shown at h
  split at h
  · rename_i program ident sn hres
    cases h
    exact ⟨program, ident, sn, hres, rfl, rfl⟩
  · cases h

/-- A provider is loaded, and the next commit comes when that is done. -/
theorem provider_files_of_snapshot_loadThenCommit :
    ∃ cfg, (readers ordersTable plainCodec).machine.ReachableIf SameSnapshot cfg ∧
      shown cfg 0 = some (1, ["s3://lake/orders/data/a"]) ∧
      cfg.state.table.currentSnapshotId = some 2 ∧
      ∃ snapshot, snapshot.snapshotId = 1 ∧
        (snapshot.dataFiles.map fun file => file.path.toUri) = ["s3://lake/orders/data/a"] ∧
        ShowsSnapshot plainCodec cfg.state.table snapshot := by
  have hrun : (((readers ordersTable plainCodec).machine.guarded SameSnapshot).exec
      ⟨ordersReaders, []⟩ [.spawn .loadProvider, .answer 0 .succeeds, .answer 0 .succeeds,
        .answer 0 .succeeds, .interfere (.commit secondOrders)]).map
      (fun cfg => (shown cfg 0, cfg.state.table.currentSnapshotId)) =
      some (some (1, ["s3://lake/orders/data/a"]), some 2) := by
    decide +kernel
  obtain ⟨cfg, hrch, hobs⟩ := Machine.existsIf_of_exec ordersReaders_start hrun
  obtain ⟨hshn, hcur⟩ := Prod.mk.inj hobs
  obtain ⟨program, ident, snapshot, hres, hid, hfs⟩ := result_of_shown hshn
  exact ⟨cfg, hrch, hshn, hcur, snapshot, hid, hfs,
    provider_files_of_snapshot plainCodec ordersTable hrch hres snapshot rfl⟩

/-- A commit between the loads: a provider shows a file of the other snapshot, or lacks one. -/
theorem provider_mixes_snapshots : ∃ cfg, (readers ordersTable plainCodec).machine.Reachable cfg ∧
      shown cfg 0 = some (1, ["s3://lake/orders/data/a", "s3://lake/orders/data/b"]) ∧
      shown cfg 1 = some (2, ["s3://lake/orders/data/a"]) := by
  have hrun : ((readers ordersTable plainCodec).machine.exec ⟨ordersReaders, []⟩
      [.spawn .loadProvider, .spawn .refresh, .answer 0 .succeeds,
        .answer 1 (.metadataFirst false), .answer 1 .succeeds, .answer 1 .succeeds,
        .interfere (.commit secondOrders), .answer 0 .succeeds, .answer 0 .succeeds,
        .answer 1 .succeeds]).map (fun cfg => (shown cfg 0, shown cfg 1)) =
      some (some (1, ["s3://lake/orders/data/a", "s3://lake/orders/data/b"]),
        some (2, ["s3://lake/orders/data/a"])) := by
    decide +kernel
  obtain ⟨cfg, hreach, hobs⟩ := Machine.exists_of_exec ordersReaders_start hrun
  exact ⟨cfg, hreach, (Prod.mk.inj hobs).1, (Prod.mk.inj hobs).2⟩

end TeoDB.Query

import TeoDB.Catalog.CommitStatus
import TeoDB.Lib.Tasks

/-!
# The calls of the catalog adapter

Every change of a table goes through a transaction, which reloads the table, applies its actions
and sends one update with their requirements. An error that is marked so is retried from the reload
on. Around it, an append checks the writer's state at each reload, while a replace and a property
update check what they expect on a load of their own, before the transaction starts.

## Implementation notes

One name of the catalog is modelled, with the table that is under it. `Purpose` and `Applied` are
ghosts. The number of retries is arbitrary. What the library does between the reload and the update
(writing manifests, drawing a snapshot identifier) is one call that can fail.
-/

namespace TeoDB.Catalog.Adapter

open TeoDB.Core Lib Lib.MachineInt

/-- A request to replace files of a base snapshot. -/
structure CommitReplace (F : Type) where
  table : TableIdent
  baseSnapshotId : Int
  removedDataFiles : List String
  addedDataFiles : List F
  properties : Properties

/-- The arguments of `update_table_properties`. -/
structure PropertiesRequest where
  expected : Properties
  updates : Properties
  removals : List String
deriving DecidableEq

/-- What an update is sent for. -/
inductive Purpose (F : Type) where
  | append (request : CommitAppend F)
  | replace (request : CommitReplace F)
  | properties (request : PropertiesRequest)

/-- An update of a table with its requirements. A property update has none. -/
structure TableCommit where
  requireUuid : Option Uuid
  requireMain : Option (Option Int)
  snapshot : Option Snapshot
  updates : List (String × String)
  removals : List String
deriving DecidableEq

namespace TableCommit

/-- The requirements hold of the table. -/
def Met (u : TableCommit) (m : TableMetadata) : Prop :=
  (∀ uuid ∈ u.requireUuid, m.tableUuid = uuid) ∧
    ∀ main ∈ u.requireMain, m.currentSnapshotId = main

instance (u : TableCommit) (m : TableMetadata) : Decidable (u.Met m) :=
  inferInstanceAs (Decidable (_ ∧ _))

def applied (u : TableCommit) (m : TableMetadata) : TableMetadata :=
  { m with
    currentSnapshotId := (u.snapshot.map Snapshot.snapshotId).or m.currentSnapshotId
    snapshots := m.snapshots ++ u.snapshot.toList
    properties := u.removals.foldl OrdMap.erase (m.properties.insertAll u.updates) }

end TableCommit

inductive CatalogCall (F : Type) where
  | loadTable
  | prepare (base : TableMetadata)
  | updateTable (purpose : Purpose F) (update : TableCommit)
  | nowMs

def CatalogAnswer (F L : Type) : CatalogCall F → Type
  | .loadTable => Except IcebergError (CatalogTable L)
  | .prepare _ => Except IcebergError Int
  | .updateTable _ _ => Except IcebergError (CatalogTable L)
  | .nowMs => Int

def interface (F L : Type) : Interface := ⟨Empty, CatalogCall F, CatalogAnswer F L⟩

/-- An update that may still reach the catalog. -/
structure Sent (F : Type) where
  task : Nat
  purpose : Purpose F
  update : TableCommit

/-- An update that was applied, with the table before and after it. -/
structure Applied (F : Type) where
  task : Nat
  purpose : Purpose F
  before : TableMetadata
  after : TableMetadata

/-- The table under the name, if there is one, and what was sent and applied. -/
structure CatalogState (F L : Type) where
  table : Option (CatalogTable L)
  wire : List (Sent F)
  log : List (Applied F)

/-- An error that can arrive after publication. -/
def IsAmbiguous (error : IcebergError) : Prop :=
  error.kind = .unexpected ∧ error.connectFailure = false

instance (error : IcebergError) : Decidable (IsAmbiguous error) :=
  inferInstanceAs (Decidable (_ ∧ _))

/-- What the catalog decides. -/
inductive Choice (L : Type) where
  | succeeds
  | fails (error : IcebergError)
  | snapshotId (id : Int)
  | clock (now : Int)
  | deliver (message : Nat)
  | external (table : Option (CatalogTable L))

section

variable {F L : Type}

/-- Apply an update if the table is there and meets its requirements. -/
def CatalogState.apply (s : CatalogState F L) (sent : Sent F) :
    Option (CatalogTable L × CatalogState F L) :=
  match s.table with
  | none => none
  | some t =>
    if sent.update.Met t.metadata then
      let t' : CatalogTable L := { t with metadata := sent.update.applied t.metadata }
      some (t', { s with
        table := some t'
        log := s.log ++ [⟨sent.task, sent.purpose, t.metadata, t'.metadata⟩] })
    else none

/-- An update with an ambiguous error stays on the wire: it was applied, will be, or never is. Any
other error says that it is not applied. -/
def failUpdate (task : Nat) (s : CatalogState F L) (purpose : Purpose F) (update : TableCommit)
    (error : IcebergError) : CatalogState F L :=
  if IsAmbiguous error then { s with wire := s.wire ++ [⟨task, purpose, update⟩] } else s

def answer (choice : Choice L) (task : Nat) (s : CatalogState F L) :
    (c : CatalogCall F) → Option (CatalogAnswer F L c × CatalogState F L)
  | .loadTable =>
    match choice with
    | .succeeds => s.table.map fun t => (.ok t, s)
    | .fails error => some (.error error, s)
    | _ => none
  | .prepare base =>
    match choice with
    | .snapshotId id =>
      if id ∈ base.snapshots.map Snapshot.snapshotId then none else some (.ok id, s)
    | .fails error => some (.error error, s)
    | _ => none
  | .updateTable purpose update =>
    match choice with
    | .succeeds => (s.apply ⟨task, purpose, update⟩).map fun r => (.ok r.1, r.2)
    | .fails error => some (.error error, failUpdate task s purpose update error)
    | _ => none
  | .nowMs =>
    match choice with
    | .clock now => some (now, s)
    | _ => none

/-- A late update reaches the catalog. -/
def deliver (choice : Choice L) (s : CatalogState F L) : Option (CatalogState F L) :=
  match choice with
  | .deliver message => (s.wire[message]?).bind fun sent => (s.apply sent).map Prod.snd
  | _ => none

/-- The catalog may also do anything else to the table. -/
def deliverOrReplace (choice : Choice L) (s : CatalogState F L) : Option (CatalogState F L) :=
  match choice with
  | .external table => some { s with table := table }
  | _ => deliver choice s

end

section

variable {F L P : Type}

/-- A program of the adapter. -/
abbrev Prog (F L ε α : Type) := Async (interface F L) (CatalogState F L) ε α

open Async

def callLoadTable : Prog F L IcebergError (CatalogTable L) := do
  let loaded ← request (I := interface F L) .loadTable
  lift loaded

def callPrepare (base : TableMetadata) : Prog F L IcebergError Int := do
  let prepared ← request (I := interface F L) (.prepare base)
  lift prepared

def callUpdateTable (purpose : Purpose F) (update : TableCommit) :
    Prog F L IcebergError (CatalogTable L) := do
  let updated ← request (I := interface F L) (.updateTable purpose update)
  lift updated

def callNowMs {ε : Type} : Prog F L ε Int := request (I := interface F L) .nowMs

/-- Continue with the errors of the adapter instead of those of the library. -/
def mapErr {ε ε' α : Type} (f : ε → ε') (p : Prog F L ε α) : Prog F L ε' α := do
  let r ← p.attempt
  lift (r.mapError f)

/-- Why an attempt failed, with the reason and the layout where the guard has refused it. -/
structure AttemptError (L : Type) where
  error : IcebergError
  rejection : Option (GuardRejection × L)

/-- A failure that the guard has no part in. -/
def AttemptError.plain (error : IcebergError) : AttemptError L := ⟨error, none⟩

/-- A transaction: the check at each reload, what it is for, and its update. -/
structure Transaction (F L : Type) where
  admission : CatalogTable L → Except (AttemptError L) Unit
  purpose : Purpose F
  update : TableMetadata → Int → TableCommit

/-- One attempt: reload the table, apply the actions to it and send the update. -/
def Transaction.doCommit (tx : Transaction F L) : Prog F L (AttemptError L) (CatalogTable L) := do
  let table ← mapErr .plain callLoadTable
  lift (tx.admission table)
  let snapshotId ← mapErr .plain (callPrepare table.metadata)
  mapErr .plain (callUpdateTable tx.purpose (tx.update table.metadata snapshotId))

/-- Retry errors that are marked so, as long as the policy allows. -/
def Transaction.commit (tx : Transaction F L) : Nat → Prog F L (AttemptError L) (CatalogTable L)
  | 0 => tx.doCommit
  | retries + 1 => do
    let result ← tx.doCommit.attempt
    match result with
    | .ok table => pure table
    | .error failure => if failure.error.retryable then tx.commit retries else throw failure

/-- The transaction of a request that no guard watches. -/
def Transaction.unguarded (purpose : Purpose F) (update : TableMetadata → Int → TableCommit) :
    Transaction F L := ⟨fun _ => .ok (), purpose, update⟩

/-- Configuration of the adapter with the serialised form of a list of paths. -/
structure AdapterEnv (F L P : Type) extends CatalogEnv F L P where
  removedToJson : List String → String

variable (env : AdapterEnv F L P) (ident : TableIdent)

def loadIcebergTable : Prog F L TeoDBError (CatalogTable L) := mapErr mapIcebergError callLoadTable

/-- Metadata in its domain form. -/
def domainMetadata (table : CatalogTable L) : TeoDBResult TableMetadata :=
  (env.icebergToTeoMetadata ident table.layout).map fun _ => table.metadata

def loadTable : Prog F L TeoDBError TableMetadata := do
  let table ← loadIcebergTable
  let _ ← lift (validateWriterCheckpoints env.codec ident table.metadata.properties)
  lift (domainMetadata env ident table)

variable (request : CommitAppend F)

/-- The check of the guard at each reload. -/
def admitAppend (table : CatalogTable L) :
    Except (AttemptError L) Unit :=
  match validate env.toCatalogEnv request table.metadata with
  | .ok _ => .ok ()
  | .error rejection => .error ⟨rejectionError, some (rejection, table.layout)⟩

def AppendTransaction.tableCommit (tx : AppendTransaction) (base : TableMetadata)
    (snapshotId : Int) : TableCommit where
  requireUuid := some base.tableUuid
  requireMain := some base.currentSnapshotId
  snapshot := some ⟨snapshotId, base.currentSnapshotId, tx.properties⟩
  updates := [tx.checkpoint]
  removals := []

def appendTransaction (tx : AppendTransaction) : Transaction F L where
  admission := admitAppend env request
  purpose := .append request
  update := AppendTransaction.tableCommit tx

/-- What a call answers when its transaction has ended. `layout` is that of the first load. -/
def appendResult (layout : L) :
    Except (AttemptError L) (CatalogTable L) → TeoDBResult (CatalogTable L)
  | .ok table => .ok table
  | .error failure =>
    (guardResult env.toCatalogEnv (failure.rejection.map Prod.fst) request failure.error).map
      fun metadata => ⟨metadata, (failure.rejection.map Prod.snd).getD layout⟩

def tryCommitAppend (retries : Nat) :
    Prog F L TeoDBError (CatalogTable L) := do
  let table ← loadIcebergTable
  let now ← callNowMs
  let tx ← lift (buildAppendTransaction env.toCatalogEnv request table.layout now)
  let result ← ((appendTransaction env request tx).commit retries).attempt
  lift (appendResult env request table.layout result)

def commitAppend (retries : Nat) :
    Prog F L TeoDBError TableMetadata := do
  let table ← tryCommitAppend env request retries
  lift (domainMetadata env request.table table)

def CommitReplace.tableCommit (request : CommitReplace F) (base : TableMetadata)
    (snapshotId : Int) : TableCommit where
  requireUuid := some base.tableUuid
  requireMain := some base.currentSnapshotId
  snapshot := some ⟨snapshotId, base.currentSnapshotId,
    request.properties.insert removedDataFilesProp (env.removedToJson request.removedDataFiles)⟩
  updates := []
  removals := []

/-- The check of a replace on its first load. -/
def checkBase (request : CommitReplace F) (metadata : TableMetadata) : TeoDBResult Unit :=
  if metadata.currentSnapshotId = some request.baseSnapshotId then .ok ()
  else .error (.conflict s!"table {request.table}" (toString request.baseSnapshotId)
    ((metadata.currentSnapshotId.map toString).getD "None"))

def replaceTransaction (request : CommitReplace F) : Transaction F L :=
  .unguarded (.replace request) (request.tableCommit env)

def tryCommitReplace (request : CommitReplace F) (retries : Nat) :
    Prog F L TeoDBError (CatalogTable L) := do
  let table ← loadIcebergTable
  lift (checkBase request table.metadata)
  lift (convertDataFiles env.toCatalogEnv request.table table.layout request.addedDataFiles)
  mapErr (fun failure => mapIcebergError failure.error)
    ((replaceTransaction env request).commit retries)

def isRetryable : TeoDBError → Bool
  | .catalog _ => true
  | _ => false

def commitReplaceWithRetry (request : CommitReplace F) (retries : Nat) :
    Nat → Prog F L TeoDBError (CatalogTable L)
  | 0 => tryCommitReplace env request retries
  | again + 1 => do
    let result ← (tryCommitReplace env request retries).attempt
    match result with
    | .ok table => pure table
    | .error error =>
      if isRetryable error then commitReplaceWithRetry request retries again else throw error

def commitReplace (request : CommitReplace F) (retries again : Nat) :
    Prog F L TeoDBError TableMetadata := do
  let table ← commitReplaceWithRetry env request retries again
  lift (domainMetadata env request.table table)

/-- The current value of a property, empty where it is absent. -/
def currentValue (properties : Properties) (key : String) : String :=
  (properties.find? key).getD ""

/-- The check of a property update on its first load. -/
def checkExpected (properties : Properties) : List (String × String) → TeoDBResult Unit
  | [] => .ok ()
  | (key, expected) :: rest =>
    if currentValue properties key = expected then checkExpected properties rest
    else .error (.conflict s!"property '{key}'" expected (currentValue properties key))

def PropertiesRequest.tableCommit (request : PropertiesRequest) (_base : TableMetadata)
    (_snapshotId : Int) : TableCommit where
  requireUuid := none
  requireMain := none
  snapshot := none
  updates := request.updates.entries
  removals := request.removals

def propertiesTransaction (request : PropertiesRequest) : Transaction F L :=
  .unguarded (.properties request) request.tableCommit

def updateTableProperties (request : PropertiesRequest) (retries : Nat) :
    Prog F L TeoDBError TableMetadata := do
  let table ← loadIcebergTable
  lift (checkExpected table.metadata.properties request.expected.entries)
  let updated ← mapErr (fun failure => mapIcebergError failure.error)
    ((propertiesTransaction request).commit retries)
  lift (domainMetadata env ident updated)

inductive Program (F : Type) where
  | append (request : CommitAppend F) (retries : Nat)
  | replace (request : CommitReplace F) (retries again : Nat)
  | properties (request : PropertiesRequest) (retries : Nat)

def program : Program F → Prog F L TeoDBError TableMetadata
  | .append request retries => commitAppend env request retries
  | .replace request retries again => commitReplace env request retries again
  | .properties request retries => updateTableProperties env ident request retries

/-- Any table whose main reference is one of its snapshots, with nothing under way. -/
structure CatalogState.Start (s : CatalogState F L) : Prop where
  sound : ∀ t ∈ s.table, mainVersion.Sound t.metadata
  wire_eq : s.wire = []
  log_eq : s.log = []

/-- Tasks of any nodes on the table under one name, which nobody else changes. -/
def adapter : Cluster (interface F L) (CatalogState F L) TeoDBError TableMetadata (Program F)
    (Choice L) where
  start := CatalogState.Start
  program := program env ident
  answer := answer
  interfere := deliver

/-- The same with a catalog that does anything else to the table at any time. -/
def openAdapter : Cluster (interface F L) (CatalogState F L) TeoDBError TableMetadata (Program F)
    (Choice L) :=
  { adapter env ident with interfere := deliverOrReplace }

end

section

variable {F L ε ε' α : Type} {E : Async.Setting (interface F L) (CatalogState F L)}
  {s : CatalogState F L}

open Async

lemma wp_mapErr {f : ε → ε'} {p : Prog F L ε α} {Q : Except ε' α → CatalogState F L → Prop} :
    wp E Q (mapErr f p) s ↔ wp E (fun r => Q (r.mapError f)) p s :=
  wp_bind.trans wp_attempt

lemma shows_mapErr {f : ε → ε'} {p : Prog F L ε α} (h : Shows E p) : Shows E (mapErr f p) :=
  fun s => wp_mapErr.mpr (h s)

/-- A call whose answer is the result: what holds before it is kept while it waits. -/
theorem wp_call_of {P : CatalogState F L → Prop} {c : CatalogCall F}
    {Q : Except ε α → CatalogState F L → Prop} {res : CatalogAnswer F L c → Except ε α}
    (hP : E.Stable P) (hs : P s)
    (h : ∀ s, P s → E.visible s (.call c) ∧ ∀ a s', E.answers s c a s' → Q (res a) s') :
    wp E Q (request (I := interface F L) c >>= fun a => lift (res a)) s :=
  wp_request_bind_of hP hs h

/-- A setting that shows something about updates only. -/
structure OnlyUpdates (E : Setting (interface F L) (CatalogState F L)) : Prop where
  loadTable : ∀ s, E.visible s (.call .loadTable)
  nowMs : ∀ s, E.visible s (.call .nowMs)

section

variable {P : Type} {env : AdapterEnv F L P} {ident : TableIdent}

lemma shows_loadIcebergTable (hE : OnlyUpdates E) :
    Shows E (loadIcebergTable : Prog F L TeoDBError (CatalogTable L)) :=
  shows_mapErr ((shows_request hE.loadTable).bind fun _ => shows_lift)

lemma shows_commit {tx : Transaction F L} (h : Shows E tx.doCommit) (tries : Nat) :
    Shows E (tx.commit tries) := by
  induction tries with
  | zero => exact h
  | succ tries ih =>
    apply h.attempt.bind
    intro res
    cases res with
    | ok table => exact shows_lift
    | error fl =>
      by_cases hret : fl.error.retryable = true
      · simpa [hret] using ih
      · simpa [hret] using shows_throw

/-- What the transactions show is what the calls of the adapter show. -/
theorem shows_program (hE : OnlyUpdates E)
    (happ : ∀ req tx, Shows E (appendTransaction env req tx).doCommit)
    (hrp : ∀ req, Shows E (replaceTransaction env req).doCommit)
    (hpr : ∀ req, Shows E (propertiesTransaction req).doCommit)
    (p : Program F) : Shows E (program env ident p) := by
  cases p with
  | append req tries =>
    refine Shows.bind ?_ fun _ => shows_lift
    refine (shows_loadIcebergTable hE).bind fun tbl => ?_
    refine (shows_request hE.nowMs).bind fun now => shows_lift.bind fun tx => ?_
    exact (shows_commit (happ req tx) tries).attempt.bind fun _ => shows_lift
  | replace req tries again =>
    have htry : Shows E (tryCommitReplace env req tries) := by
      refine (shows_loadIcebergTable hE).bind fun tbl => ?_
      refine shows_lift.bind fun _ => shows_lift.bind fun _ => ?_
      exact shows_mapErr (shows_commit (hrp req) tries)
    refine Shows.bind ?_ fun _ => shows_lift
    induction again with
    | zero => exact htry
    | succ again ih =>
      apply htry.attempt.bind
      intro res
      cases res with
      | ok tbl => exact shows_lift
      | error e =>
        by_cases hret : isRetryable e = true
        · simpa [hret] using ih
        · simpa [hret] using shows_throw
  | properties req tries =>
    refine (shows_loadIcebergTable hE).bind fun tbl => shows_lift.bind fun _ => ?_
    exact (shows_mapErr (shows_commit (hpr req) tries)).bind fun _ => shows_lift

end

end

section

variable {F L : Type} {s s' : CatalogState F L} {sent : Sent F} {t' : CatalogTable L}

lemma CatalogState.apply_eq_some (h : s.apply sent = some (t', s')) :
    ∃ t, s.table = some t ∧ sent.update.Met t.metadata ∧
      t' = { t with metadata := sent.update.applied t.metadata } ∧
      s' = { s with
        table := some t'
        log := s.log ++ [⟨sent.task, sent.purpose, t.metadata, t'.metadata⟩] } := by
  unfold CatalogState.apply at h
  split at h
  · cases h
  · rename_i t ht
    split_ifs at h with hmet
    cases h
    exact ⟨t, ht, hmet, rfl, rfl⟩

/-- An answer leaves the state, puts an update on the wire or applies it. -/
theorem answer_state {ch : Choice L} {task : Nat} {c : CatalogCall F}
    {a : CatalogAnswer F L c} (h : answer ch task s c = some (a, s')) :
    s' = s ∨ ∃ pp upd, c = .updateTable pp upd ∧
      (s' = { s with wire := s.wire ++ [⟨task, pp, upd⟩] } ∨
        ch = .succeeds ∧ ∃ t', s.apply ⟨task, pp, upd⟩ = some (t', s')) := by
  cases c with
  | loadTable =>
    cases ch with
    | succeeds =>
      obtain ⟨t, _, heq⟩ := Option.map_eq_some_iff.mp h
      exact Or.inl (Prod.mk.inj heq).2.symm
    | fails e => exact Or.inl (Prod.mk.inj (Option.some.inj h)).2.symm
    | _ => cases h
  | prepare base =>
    cases ch with
    | snapshotId id =>
      simp only [answer] at h
      split_ifs at h
      exact Or.inl (Prod.mk.inj (Option.some.inj h)).2.symm
    | fails e => exact Or.inl (Prod.mk.inj (Option.some.inj h)).2.symm
    | _ => cases h
  | updateTable pp upd =>
    cases ch with
    | succeeds =>
      obtain ⟨⟨t', s''⟩, hap, heq⟩ := Option.map_eq_some_iff.mp h
      obtain rfl := (Prod.mk.inj heq).2
      exact Or.inr ⟨pp, upd, rfl, Or.inr ⟨rfl, t', hap⟩⟩
    | fails e =>
      have hs' : failUpdate task s pp upd e = s' :=
        (Prod.mk.inj (Option.some.inj h)).2
      unfold failUpdate at hs'
      split_ifs at hs'
      · exact Or.inr ⟨pp, upd, rfl, Or.inl hs'.symm⟩
      · exact Or.inl hs'.symm
    | _ => cases h
  | nowMs =>
    cases ch with
    | clock now => exact Or.inl (Prod.mk.inj (Option.some.inj h)).2.symm
    | _ => cases h

lemma deliver_eq_some {ch : Choice L} (h : deliver ch s = some s') :
    ∃ msg sent t', ch = .deliver msg ∧ s.wire[msg]? = some sent ∧ s.apply sent = some (t', s') := by
  cases ch with
  | deliver msg =>
    obtain ⟨sent, hs, hmap⟩ := Option.bind_eq_some_iff.mp h
    obtain ⟨⟨t', s''⟩, hap, rfl⟩ := Option.map_eq_some_iff.mp hmap
    exact ⟨msg, sent, t', rfl, hs, hap⟩
  | _ => cases h

end

/-- An adapter whose conversions succeed. -/
def plainAdapter : AdapterEnv Unit Unit Unit := { plainEnv with removedToJson := fun _ => "[]" }

end TeoDB.Catalog.Adapter

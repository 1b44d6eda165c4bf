import TeoDB.Core.Identity
import TeoDB.Lib.Machine
import TeoDB.Lib.ReplacedFile
import TeoDB.Storage.Wal.PreparedJson

/-!
# The identity file of a log directory

Opening a log reads its identity or creates one, and writes it back with the next epoch before the
epoch is used. Observing an epoch of the catalog that is not below its own makes a running log
write a higher one first. Each call can stop before or after each of its file operations.

No epoch that can be found in the file later is below one that was returned (`epochs_fence`).

## Implementation notes

The lease lets one process at a time have the log open, so a machine has one identity in memory,
that of the last open. A power loss can bring back every content since the last sync of the
directory, as `ReplacedFile` says. The file of the first open has arbitrary contents.
-/

namespace TeoDB.Storage.Wal

open TeoDB.Core TeoDB.Core.PlainText Lib Lib.MachineInt

structure WalIdentityConfig where
  clusterId : Option ClusterId
  nodeId : Option NodeId
  writerSlot : Option WriterSlot
deriving DecidableEq

structure IdentityFile where
  version : Nat
  clusterId : ClusterId
  writerSlot : WriterSlot
  writerId : WriterId
  epoch : WriterEpoch
deriving DecidableEq

def identityVersion : Nat := 1

def maxIdentityFileBytes : Nat := 16 * 1024

namespace Wire

open Storage.Wire

def clusterId : Serde ClusterId :=
  uuid.equiv ⟨ClusterId.uuid, ClusterId.mk, fun _ => rfl, fun _ => rfl⟩

def writerSlot : Serde WriterSlot :=
  Serde.string.equiv ⟨WriterSlot.value, WriterSlot.mk, fun _ => rfl, fun _ => rfl⟩

def identityFile : Serde IdentityFile :=
  .record
    (.cons "version" (.natTo 65535) <| .cons "cluster_id" clusterId <|
      .cons "writer_slot" writerSlot <| .cons "writer_id" writerId <|
      .cons "epoch" writerEpoch .nil)
    (by simp) true
    { toFun := fun f => (f.version, f.clusterId, f.writerSlot, f.writerId, f.epoch, ())
      invFun := fun (version, clusterId, writerSlot, writerId, epoch, _) =>
        ⟨version, clusterId, writerSlot, writerId, epoch⟩ }

end Wire

/-- The numbers of an identity are in the ranges of their machine types. -/
structure IdentityFile.InRange (f : IdentityFile) : Prop where
  version : f.version ≤ 65535
  epoch : f.epoch.value ≤ u64Max

/-- The JSON library and the name-based UUIDs. -/
structure IdentityLib where
  text : JsonText
  newV5 : Uuid → String → Uuid

namespace Identity

variable (lib : IdentityLib)

def uuidText (u : Uuid) : String := String.ofList (uuidChars u)

/-- The bytes that are written for an identity. -/
def write (f : IdentityFile) : lib.text.Text := lib.text.pretty (Wire.identityFile.ser f)

def parse (content : lib.text.Text) : Except String IdentityFile :=
  lib.text.parse content >>= Wire.identityFile.de

/-- The checks of an identity that was parsed. -/
def checkIdentity (f : IdentityFile) : TeoDBResult Unit :=
  if f.version ≠ identityVersion then
    .error (walError s!"unsupported writer identity version {f.version}")
  else if f.clusterId.uuid.isNil then
    .error (walError "writer identity contains a nil cluster UUID")
  else if f.writerId.uuid.isNil then
    .error (walError "writer identity contains a nil writer UUID")
  else
    match WriterSlot.new f.writerSlot.value with
    | .error error =>
      .error (walError (s!"writer identity contains an invalid writer slot: " ++
        error.display uuidText))
    | .ok _ =>
      let derived := WriterId.derive lib.newV5 f.clusterId f.writerSlot
      if f.writerId ≠ derived then
        .error (walError (s!"writer identity is internally inconsistent: persisted " ++
          s!"{uuidText f.writerId.uuid}, derived {uuidText derived.uuid}"))
      else .ok ()

def readIdentity (content : lib.text.Text) : TeoDBResult IdentityFile :=
  let length := lib.text.length content
  if length = 0 then .error (walError "writer identity file is empty")
  else if length > maxIdentityFileBytes then
    .error (walError s!"writer identity file exceeds {maxIdentityFileBytes} bytes")
  else
    match parse lib content with
    | .error error => .error (.wal "parse writer identity" (some error))
    | .ok f => (checkIdentity lib f).map fun _ => f

def validateConfiguredIdentity (cfg : WalIdentityConfig) : TeoDBResult Unit := do
  if cfg.clusterId.any fun clusterId => clusterId.uuid.isNil then
    .error (.config "configured cluster UUID must not be nil")
  match cfg.nodeId with
  | some nodeId => let _ ← NodeId.new nodeId.value
  | none => pure ()
  match cfg.writerSlot with
  | some writerSlot => let _ ← WriterSlot.new writerSlot.value
  | none => pure ()

def validateIdentity (persisted : IdentityFile) (cfg : WalIdentityConfig) : TeoDBResult Unit :=
  match cfg.clusterId.filter fun clusterId => clusterId ≠ persisted.clusterId with
  | some clusterId =>
    .error (.config (s!"WAL cluster identity mismatch: configured {uuidText clusterId.uuid}, " ++
      s!"persisted {uuidText persisted.clusterId.uuid}"))
  | none =>
    match cfg.writerSlot.filter fun writerSlot => writerSlot ≠ persisted.writerSlot with
    | some writerSlot =>
      .error (.config (s!"WAL writer slot mismatch: configured {writerSlot.value}, " ++
        s!"persisted {persisted.writerSlot.value}"))
    | none => .ok ()

/-- Refuse to create an identity next to durable state. The files of the directory come
with their lengths. -/
def ensureUninitializedRoot (files : List (String × Nat)) : TeoDBResult Unit :=
  let durableFiles := (files.filter fun (name, length) =>
    (name.endsWith ".wal" || name == "committed.json") && 0 < length).map Prod.fst
  if durableFiles.isEmpty then .ok ()
  else
    let names := ", ".intercalate (durableFiles.insertionSort (· ≤ ·))
    .error (walError s!"writer identity is missing while durable WAL state exists (files: {names})")

/-- What an open finds in the file system besides the identity file. -/
structure OpenEnv where
  readError : Option TeoDBError
  rootFiles : TeoDBResult (List (String × Nat))
  freshCluster : Uuid

/-- The identity that is read, or the one to be created. -/
def loadOrCreate (cfg : WalIdentityConfig) (env : OpenEnv) (visible : Option lib.text.Text) :
    TeoDBResult (IdentityFile × Bool) :=
  match visible with
  | some content =>
    match env.readError with
    | some error => .error error
    | none => (readIdentity lib content).map fun f => (f, false)
  | none =>
    match env.rootFiles >>= ensureUninitializedRoot with
    | .error error => .error error
    | .ok _ =>
      let clusterId := cfg.clusterId.getD ⟨env.freshCluster⟩
      let writerSlot := cfg.writerSlot.getD ⟨"standalone"⟩
      .ok (⟨identityVersion, clusterId, writerSlot,
        WriterId.derive lib.newV5 clusterId writerSlot, .zero⟩, true)

/-- The identity that an open writes. -/
def bumped (persisted : IdentityFile) (cfg : WalIdentityConfig) : TeoDBResult IdentityFile :=
  match validateIdentity persisted cfg with
  | .error error => .error error
  | .ok _ => persisted.epoch.checkedNext.map fun epoch => { persisted with epoch := epoch }

def resolve (f : IdentityFile) (nodeId : NodeId) : ResolvedIdentity :=
  ⟨f.clusterId, nodeId, f.writerSlot, f.writerId, f.epoch⟩

/-- The identity that an observation writes. -/
def observedFile (identity : ResolvedIdentity) (epoch : WriterEpoch) : IdentityFile :=
  ⟨identityVersion, identity.clusterId, identity.writerSlot, identity.writerId, epoch⟩

/-- What a call goes on with once its file has been replaced. -/
inductive Call where
  | create (cfg : WalIdentityConfig) (nodeId : NodeId)
  | bump (nodeId : NodeId)
  | observe (before : ResolvedIdentity) (observed : WriterEpoch)

/-- Where the process is. -/
inductive Phase where
  | down
  | running (identity : ResolvedIdentity)
  | persisting (call : Call) (f : IdentityFile) (renamed : Bool)

/-- The identity in memory. -/
def Phase.memory : Phase → Option ResolvedIdentity
  | .running identity => some identity
  | .persisting (.observe before _) _ _ => some before
  | _ => none

/-- A successful return. An open has observed nothing. -/
structure Return where
  life : Nat
  observed : Option WriterEpoch
  epoch : WriterEpoch
  writerId : WriterId
deriving DecidableEq

/-- The file, the process, and what has been returned so far. -/
structure State where
  file : ReplacedFile lib.text.Text
  phase : Phase
  life : Nat
  returns : List Return
  failures : List (Option ResolvedIdentity × Option ResolvedIdentity)

inductive Label where
  | openWal (cfg : WalIdentityConfig) (env : OpenEnv)
  | observe (observed : WriterEpoch)
  | rename
  | syncDir
  | fail
  | crash
  | powerLoss (survivor : Nat)

namespace State

variable {lib}

variable (s : State lib)

/-- Write the bumped identity, or fail the open. -/
def startBump (f : IdentityFile) (cfg : WalIdentityConfig) (nodeId : NodeId) :
    State lib :=
  match bumped f cfg with
  | .error _ => { s with phase := .down }
  | .ok next => { s with phase := .persisting (.bump nodeId) next false }

def openLog (cfg : WalIdentityConfig) (env : OpenEnv) : State lib :=
  let nodeId := cfg.nodeId.getD ⟨"standalone"⟩
  match validateConfiguredIdentity cfg with
  | .error _ => s
  | .ok _ =>
    match loadOrCreate lib cfg env s.file.visible with
    | .error _ => s
    | .ok (f, true) => { s with phase := .persisting (.create cfg nodeId) f false }
    | .ok (f, false) => s.startBump f cfg nodeId

/-- `observe_epoch_and_bump` up to its file. -/
def observe (identity : ResolvedIdentity) (observed : WriterEpoch) : State lib :=
  if observed < identity.writerEpoch then
    { s with
      returns := s.returns ++
        [⟨s.life, some observed, identity.writerEpoch, identity.writerId⟩] }
  else
    match observed.checkedNext with
    | .error _ => { s with failures := s.failures ++ [(some identity, s.phase.memory)] }
    | .ok epoch =>
      { s with
        phase := .persisting (.observe identity observed) (observedFile identity epoch) false }

/-- Go on after the directory was synced. -/
def finish (f : IdentityFile) : Call → State lib
  | .create cfg nodeId => s.startBump f cfg nodeId
  | .bump nodeId =>
    { s with
      phase := .running (resolve f nodeId)
      returns := s.returns ++ [⟨s.life, none, f.epoch, f.writerId⟩] }
  | .observe before observed =>
    { s with
      phase := .running { before with writerEpoch := f.epoch }
      returns := s.returns ++ [⟨s.life, some observed, f.epoch, before.writerId⟩] }

/-- Return the error of a persist. -/
def abandon : Call → State lib
  | .create _ _ | .bump _ => { s with phase := .down }
  | .observe before _ =>
    let after : Phase := .running before
    { s with
      phase := after
      failures := s.failures ++ [(some before, after.memory)] }

def stop : State lib := { s with phase := .down, life := s.life + 1 }

def step : Label → Option (State lib)
  | .openWal cfg env =>
    match s.phase with
    | .down => some (s.openLog cfg env)
    | _ => none
  | .observe observed =>
    match s.phase with
    | .running identity => some (s.observe identity observed)
    | _ => none
  | .rename =>
    match s.phase with
    | .persisting call f false =>
      some { s with file := s.file.rename (write lib f), phase := .persisting call f true }
    | _ => none
  | .syncDir =>
    match s.phase with
    | .persisting call f true => some ({ s with file := s.file.sync }.finish f call)
    | _ => none
  | .fail =>
    match s.phase with
    | .persisting call _ _ => some (s.abandon call)
    | _ => none
  | .crash => some s.stop
  | .powerLoss survivor =>
    (s.file.powerLoss survivor).map fun file => { s.stop with file := file }

end State

/-- Calls on one log directory, with crashes and failures. -/
def machine : Machine (State lib) Label where
  start s := ∃ content, s = ⟨.settled content, .down, 0, [], []⟩
  next := State.step

variable {lib}

lemma identityVersion_le : identityVersion ≤ 65535 := by decide

variable {f : IdentityFile}

lemma parse_write (h : f.InRange) : parse lib (write lib f) = .ok f := by
  have hf : Wire.identityFile.Fits f := ⟨h.version, trivial, trivial, trivial, h.epoch, trivial⟩
  rw [parse, write, lib.text.parse_pretty]
  exact (Wire.identityFile.de_ser_iff f).mpr hf

/-- An identity that was read is the one in the file, with the known version. -/
lemma readIdentity_eq_ok {ct : lib.text.Text} (h : readIdentity lib ct = .ok f) :
    parse lib ct = .ok f ∧ f.version = identityVersion := by
  simp only [readIdentity] at h
  split_ifs at h
  cases hps : parse lib ct with
  | error err => simp [hps] at h
  | ok read =>
    simp only [hps] at h
    cases hche : checkIdentity lib read with
    | error err => simp [hche, Except.map] at h
    | ok _ =>
      simp only [hche, Except.map, Except.ok.injEq] at h
      subst h
      refine ⟨rfl, ?_⟩
      unfold checkIdentity at hche
      by_contra hversion
      rw [if_pos hversion] at hche
      cases hche

lemma bumped_eq_ok {f next : IdentityFile} {cfg : WalIdentityConfig}
    (h : bumped f cfg = .ok next) (hver : f.version ≤ 65535) :
    next.InRange ∧ f.epoch.value < next.epoch.value ∧ next.writerId = f.writerId := by
  unfold bumped at h
  cases hvd : validateIdentity f cfg with
  | error err => simp [hvd] at h
  | ok _ =>
    simp only [hvd] at h
    cases hn : f.epoch.checkedNext with
    | error err => simp [hn, Except.map] at h
    | ok ep =>
      simp only [hn, Except.map, Except.ok.injEq] at h
      subst h
      obtain ⟨hmax, hepoch⟩ := WriterEpoch.checkedNext_eq_ok.mp hn
      exact ⟨⟨hver, by dsimp only; omega⟩, by dsimp only; omega, rfl⟩

/-- A content is of the writer of every return so far and of no smaller epoch. -/
def Covers (returns : List Return) (content : Option lib.text.Text) : Prop :=
  ∀ r ∈ returns, ∃ text f, content = some text ∧ parse lib text = .ok f ∧
    r.epoch.value ≤ f.epoch.value ∧ r.writerId = f.writerId

/-- An identity above every epoch that was returned. -/
def Ahead (returns : List Return) (f : IdentityFile) : Prop :=
  ∀ r ∈ returns, r.epoch.value < f.epoch.value ∧ r.writerId = f.writerId

variable {returns : List Return}

lemma Ahead.covers (h : Ahead returns f) (hrg : f.InRange) : Covers returns
    (some (write lib f)) := by
  intro r hr
  exact ⟨write lib f, f, rfl, parse_write hrg, (h r hr).1.le, (h r hr).2⟩

/-- The identity in memory is that of the last return, and epochs of earlier lives are
below its epoch. -/
structure Current (returns : List Return) (life : Nat) (identity : ResolvedIdentity) : Prop where
  returned : ∃ r ∈ returns, r.epoch = identity.writerEpoch ∧ r.writerId = identity.writerId
  last : ∀ r ∈ returns, r.epoch.value ≤ identity.writerEpoch.value ∧
    r.writerId = identity.writerId
  earlier : ∀ r ∈ returns, r.life ≠ life → r.epoch.value < identity.writerEpoch.value

/-- What an observation in progress relies on. -/
def CallInv (returns : List Return) (life : Nat) (f : IdentityFile) : Call → Prop
  | .create _ _ | .bump _ => True
  | .observe before observed =>
    Current returns life before ∧ observed.value < f.epoch.value ∧ f.writerId = before.writerId

def PhaseInv (file : ReplacedFile lib.text.Text) (returns : List Return) (life : Nat) :
    Phase → Prop
  | .down => True
  | .running identity => Current returns life identity
  | .persisting call f renamed =>
    f.InRange ∧ Ahead returns f ∧ CallInv returns life f call ∧
      (renamed = true → file.visible = some (write lib f))

/-- How a return stands to a later one. -/
structure Precedes (a b : Return) : Prop where
  writer : a.writerId = b.writerId
  le : a.epoch.value ≤ b.epoch.value
  opens : a.observed = none → b.observed = none → a.epoch.value < b.epoch.value
  restart : a.life ≠ b.life → a.epoch.value < b.epoch.value

structure Inv (s : State lib) : Prop where
  file : s.file.All (Covers s.returns)
  phase : PhaseInv s.file s.returns s.life s.phase
  ordered : s.returns.Pairwise Precedes
  observed : ∀ r ∈ s.returns, ∀ e, r.observed = some e → e.value < r.epoch.value
  failures : ∀ failure ∈ s.failures, failure.1 = failure.2

lemma Precedes.of_lt {a b : Return} (hlt : a.epoch.value < b.epoch.value)
    (hwtr : a.writerId = b.writerId) : Precedes a b :=
  ⟨hwtr, hlt.le, fun _ _ => hlt, fun _ => hlt⟩

/-- A return of an epoch above all others, when the file holds it. -/
lemma Ahead.ordered (h : Ahead returns f) (hord : returns.Pairwise Precedes) {r : Return}
    (hepoch : r.epoch = f.epoch) (hwtr : r.writerId = f.writerId) :
    (returns ++ [r]).Pairwise Precedes := by
  rw [List.pairwise_append]
  refine ⟨hord, List.pairwise_singleton _ _, ?_⟩
  intro a ha b hb
  rw [List.mem_singleton.mp hb]
  exact .of_lt (hepoch ▸ (h a ha).1) ((h a ha).2.trans hwtr.symm)

/-- A return of the epoch in a file is covered by that file. -/
lemma Ahead.covers_return (h : Ahead returns f) (hrg : f.InRange) {r : Return}
    (hepoch : r.epoch = f.epoch) (hwtr : r.writerId = f.writerId) : Covers (returns ++ [r])
    (some (write lib f)) := by
  refine List.forall_mem_append.mpr ⟨h.covers hrg, List.forall_mem_singleton.mpr ?_⟩
  exact ⟨write lib f, f, rfl, parse_write hrg, hepoch ▸ le_refl _, hwtr⟩

namespace Current

variable {rets : List Return} {life : Nat} {idn : ResolvedIdentity} {e : Option WriterEpoch}

lemma again (h : Current rets life idn) :
    Current (rets ++ [⟨life, e, idn.writerEpoch, idn.writerId⟩]) life idn := by
  obtain ⟨last, hlast, hs⟩ := h.returned
  refine ⟨⟨last, List.mem_append_left _ hlast, hs⟩,
    List.forall_mem_append.mpr ⟨h.last, List.forall_mem_singleton.mpr ⟨le_refl _, rfl⟩⟩,
    List.forall_mem_append.mpr ⟨h.earlier, List.forall_mem_singleton.mpr ?_⟩⟩
  exact fun hl => absurd rfl hl

lemma covers_again (h : Current rets life idn) {ct : Option lib.text.Text}
    (hcov : Covers rets ct) : Covers (rets ++ [⟨life, e, idn.writerEpoch, idn.writerId⟩]) ct := by
  obtain ⟨last, hl, hepoch, hwtr⟩ := h.returned
  refine List.forall_mem_append.mpr ⟨hcov, List.forall_mem_singleton.mpr ?_⟩
  rw [← hepoch, ← hwtr]
  exact hcov last hl

lemma ordered (h : Current rets life idn) (hord : rets.Pairwise Precedes)
    {observed : WriterEpoch} :
    (rets ++ [(⟨life, some observed, idn.writerEpoch, idn.writerId⟩ : Return)]).Pairwise
      Precedes := by
  rw [List.pairwise_append]
  refine ⟨hord, List.pairwise_singleton _ _, ?_⟩
  intro a ha b hb
  rw [List.mem_singleton.mp hb]
  exact ⟨(h.last a ha).2, (h.last a ha).1, fun _ hn => absurd hn (Option.some_ne_none _),
    h.earlier a ha⟩

end Current

section

variable {s : State lib}

lemma Inv.setPhase (h : Inv s) {ph : Phase}
    (hph : PhaseInv s.file s.returns s.life ph) : Inv { s with phase := ph } :=
  ⟨h.file, hph, h.ordered, h.observed, h.failures⟩

variable {f : IdentityFile}

/-- Writing the next epoch of an identity that is not behind what was returned. -/
lemma Inv.startBump (h : Inv s) (hver : f.version ≤ 65535)
    (hf : ∀ r ∈ s.returns, r.epoch.value ≤ f.epoch.value ∧ r.writerId = f.writerId)
    (cfg : WalIdentityConfig) (nodeId : NodeId) : Inv (s.startBump f cfg nodeId) := by
  unfold State.startBump
  cases hbum : bumped f cfg with
  | error error => exact h.setPhase trivial
  | ok next =>
    obtain ⟨hrg, hlt, hwtr⟩ := bumped_eq_ok hbum hver
    apply h.setPhase
    refine ⟨hrg, ?_, trivial, fun hrn => absurd hrn Bool.false_ne_true⟩
    intro r hr
    exact ⟨lt_of_le_of_lt (hf r hr).1 hlt, (hf r hr).2.trans hwtr.symm⟩

lemma Inv.returns_eq_nil (h : Inv s) (hf : s.file.visible = none) : s.returns = [] := by
  apply List.eq_nil_iff_forall_not_mem.mpr
  intro r hr
  obtain ⟨text, _, ht, _⟩ := h.file.visible r hr
  rw [hf] at ht
  cases ht

lemma Inv.openLog (h : Inv s) (cfg : WalIdentityConfig) (env : OpenEnv) :
    Inv (s.openLog cfg env) := by
  unfold State.openLog
  cases validateConfiguredIdentity cfg with
  | error err => exact h
  | ok _ =>
    cases hf : s.file.visible with
    | some ct =>
      cases hre : env.readError with
      | some err => simpa [loadOrCreate, hre] using h
      | none =>
        cases hidn : readIdentity lib ct with
        | error err => simpa [loadOrCreate, hre, hidn, Except.map] using h
        | ok f =>
          obtain ⟨hps, hver⟩ := readIdentity_eq_ok hidn
          simp only [loadOrCreate, hre, hidn, Except.map]
          refine h.startBump (hver ▸ identityVersion_le) ?_ cfg _
          intro r hr
          obtain ⟨text, g, ht, hg, hle, hwtr⟩ := h.file.visible r hr
          rw [hf] at ht
          cases ht
          rw [hps] at hg
          cases hg
          exact ⟨hle, hwtr⟩
    | none =>
      simp only [loadOrCreate]
      cases env.rootFiles >>= ensureUninitializedRoot with
      | error err => exact h
      | ok _ =>
        apply h.setPhase
        refine ⟨⟨identityVersion_le, Nat.zero_le _⟩, ?_, trivial,
          fun hrn => absurd hrn Bool.false_ne_true⟩
        rw [h.returns_eq_nil hf]
        exact fun r hr => absurd hr List.not_mem_nil

lemma Inv.observe (h : Inv s) {identity : ResolvedIdentity} (hph : s.phase = .running identity)
    (observed : WriterEpoch) : Inv (s.observe identity observed) := by
  have hcur : Current s.returns s.life identity := by
    have hinv := h.phase
    rwa [hph] at hinv
  unfold State.observe
  split_ifs with hlt
  · refine ⟨h.file.mono fun _ => hcur.covers_again, ?_, hcur.ordered h.ordered,
      List.forall_mem_append.mpr ⟨h.observed, List.forall_mem_singleton.mpr ?_⟩, h.failures⟩
    · rw [hph]
      exact hcur.again
    · intro e he
      cases he
      exact hlt
  · cases hn : observed.checkedNext with
    | error error =>
      refine ⟨h.file, h.phase, h.ordered, h.observed,
        List.forall_mem_append.mpr ⟨h.failures, List.forall_mem_singleton.mpr ?_⟩⟩
      rw [hph]
      rfl
    | ok epoch =>
      obtain ⟨hmax, hepoch⟩ := WriterEpoch.checkedNext_eq_ok.mp hn
      have hge : identity.writerEpoch.value ≤ observed.value := not_lt.mp hlt
      apply h.setPhase
      refine ⟨⟨identityVersion_le, ?_⟩, ?_, ⟨hcur, ?_, rfl⟩,
        fun hrn => absurd hrn Bool.false_ne_true⟩
      · simp only [observedFile]
        omega
      · intro r hr
        have hl := hcur.last r hr
        refine ⟨?_, hl.2⟩
        simp only [observedFile]
        omega
      · simp only [observedFile]
        omega

/-- After the first sync, the identity in memory is the one that was written. -/
lemma Ahead.current (h : Ahead returns f) (life : Nat) (e : Option WriterEpoch)
    {identity : ResolvedIdentity} (hepo : identity.writerEpoch = f.epoch)
    (hwtr : identity.writerId = f.writerId) :
    Current (returns ++ [⟨life, e, f.epoch, f.writerId⟩]) life identity := by
  refine ⟨⟨_, List.mem_concat_self, hepo.symm, hwtr.symm⟩,
    List.forall_mem_append.mpr ⟨?_, List.forall_mem_singleton.mpr ?_⟩,
    List.forall_mem_append.mpr ⟨?_, List.forall_mem_singleton.mpr ?_⟩⟩
  · intro r hr
    rw [hepo, hwtr]
    exact ⟨(h r hr).1.le, (h r hr).2⟩
  · exact ⟨hepo ▸ le_refl _, hwtr.symm⟩
  · intro r hr _
    rw [hepo]
    exact (h r hr).1
  · exact fun hl => absurd rfl hl

/-- Returning the epoch that the file was replaced with. -/
lemma Inv.return (h : Inv s) (hrg : f.InRange) (hahe : Ahead s.returns f)
    (hf : s.file.visible = some (write lib f)) {e : Option WriterEpoch}
    (he : ∀ observed, e = some observed → observed.value < f.epoch.value)
    (identity : ResolvedIdentity) (hepoch : identity.writerEpoch = f.epoch)
    (hwtr : identity.writerId = f.writerId) :
    Inv { s with
      file := s.file.sync
      phase := .running identity
      returns := s.returns ++ [⟨s.life, e, f.epoch, f.writerId⟩] } := by
  refine ⟨?_, hahe.current s.life e hepoch hwtr, hahe.ordered h.ordered rfl rfl,
    List.forall_mem_append.mpr ⟨h.observed, List.forall_mem_singleton.mpr he⟩, h.failures⟩
  apply ReplacedFile.All.settled
  rw [hf]
  exact hahe.covers_return hrg rfl rfl

variable {call : Call}

lemma Inv.syncDir (h : Inv s) (hph : s.phase = .persisting call f true) :
    Inv ({ s with file := s.file.sync }.finish f call) := by
  have hinv := h.phase
  rw [hph] at hinv
  obtain ⟨hrg, hahe, hc, hvis⟩ := hinv
  cases call with
  | create cfg nodeId =>
    have hsyn : Inv { s with file := s.file.sync, phase := .down } :=
      ⟨h.file.sync, trivial, h.ordered, h.observed, h.failures⟩
    have hb := hsyn.startBump hrg.version (fun r hr => ⟨(hahe r hr).1.le, (hahe r hr).2⟩) cfg nodeId
    exact hb
  | bump nodeId =>
    exact h.return hrg hahe (hvis rfl)
      (fun _ hn => absurd hn.symm (Option.some_ne_none _)) (resolve f nodeId) rfl rfl
  | observe bef observed =>
    obtain ⟨_, hlt, hwtr⟩ := hc
    have hret := h.return hrg hahe (hvis rfl) (e := some observed)
      (fun e he => Option.some.inj he ▸ hlt) { bef with writerEpoch := f.epoch } rfl
      hwtr.symm
    rw [hwtr] at hret
    exact hret

lemma Inv.rename (h : Inv s) (hph : s.phase = .persisting call f false) :
    Inv { s with file := s.file.rename (write lib f), phase := .persisting call f true } := by
  have hinv := h.phase
  rw [hph] at hinv
  obtain ⟨hrg, hahe, hc, _⟩ := hinv
  exact ⟨h.file.rename (hahe.covers hrg), ⟨hrg, hahe, hc, fun _ => rfl⟩, h.ordered,
    h.observed, h.failures⟩

lemma Inv.abandon (h : Inv s) {renamed : Bool} (hph : s.phase = .persisting call f renamed) : Inv
    (s.abandon call) := by
  have hinv := h.phase
  rw [hph] at hinv
  cases call with
  | create cfg nodeId => exact h.setPhase trivial
  | bump nodeId => exact h.setPhase trivial
  | observe before observed =>
    exact ⟨h.file, hinv.2.2.1.1, h.ordered, h.observed,
      List.forall_mem_append.mpr ⟨h.failures, List.forall_mem_singleton.mpr rfl⟩⟩

lemma Inv.stop (h : Inv s) : Inv s.stop :=
  ⟨h.file, trivial, h.ordered, h.observed, h.failures⟩

lemma Inv.step (h : Inv s) {label : Label} {s' : State lib} (hs : s.step label = some s') :
    Inv s' := by
  cases label with
  | openWal cfg env =>
    cases hph : s.phase <;> simp only [State.step, hph] at hs <;> cases hs
    exact h.openLog cfg env
  | observe observed =>
    cases hph : s.phase <;> simp only [State.step, hph] at hs <;> cases hs
    exact h.observe hph observed
  | rename =>
    simp only [State.step] at hs
    split at hs
    · rename_i call f hph
      cases hs
      exact h.rename hph
    · cases hs
  | syncDir =>
    simp only [State.step] at hs
    split at hs
    · rename_i call f hph
      cases hs
      exact h.syncDir hph
    · cases hs
  | fail =>
    simp only [State.step] at hs
    split at hs
    · rename_i call f renamed hph
      cases hs
      exact h.abandon hph
    · cases hs
  | crash =>
    cases hs
    exact h.stop
  | powerLoss survivor =>
    obtain ⟨file, hf, rfl⟩ := Option.map_eq_some_iff.mp hs
    exact ⟨h.file.powerLoss hf, trivial, h.ordered, h.observed, h.failures⟩

end

/-- The invariant along every run. -/
lemma inv_of_reachable {s : State lib} (run : (machine lib).Reachable s) : Inv s := by
  apply run.invariant
  · rintro s ⟨ct, rfl⟩
    refine ⟨ReplacedFile.All.settled ?_, trivial, List.Pairwise.nil, ?_, ?_⟩
    · exact fun r hr => absurd hr List.not_mem_nil
    · exact fun r hr => absurd hr List.not_mem_nil
    · exact fun r hr => absurd hr List.not_mem_nil
  · intro s label s' h hs
    exact h.step hs

/-- The epochs that have been returned fence each other off. -/
structure Fenced (returns : List Return)
    (failures : List (Option ResolvedIdentity × Option ResolvedIdentity)) : Prop where
  opens : (returns.filter fun r => r.observed.isNone).Pairwise fun a b =>
    a.epoch.value < b.epoch.value
  observed : ∀ r ∈ returns, ∀ e, r.observed = some e → e.value < r.epoch.value
  monotone : returns.Pairwise fun a b => a.epoch.value ≤ b.epoch.value
  restart : returns.Pairwise fun a b => a.life ≠ b.life → a.epoch.value < b.epoch.value
  writer : ∀ a ∈ returns, ∀ b ∈ returns, a.writerId = b.writerId
  failed : ∀ failure ∈ failures, failure.1 = failure.2

/-- Whatever crashes, power losses and failures there are, the returned epochs fence each other off.
-/
theorem epochs_fence {s : State lib} (run : (machine lib).Reachable s) :
    Fenced s.returns s.failures := by
  have h := inv_of_reachable run
  refine ⟨?_, h.observed, h.ordered.imp fun hp => hp.le, h.ordered.imp fun hp => hp.restart, ?_,
    h.failures⟩
  · rw [List.pairwise_filter]
    apply h.ordered.imp
    intro a b hp ha hb
    exact hp.opens (Option.isNone_iff_eq_none.mp ha) (Option.isNone_iff_eq_none.mp hb)
  · have hsymm : Std.Symm fun a b : Return => a.writerId = b.writerId := ⟨fun _ _ h => h.symm⟩
    have hs : s.returns.Pairwise fun a b => a.writerId = b.writerId :=
      h.ordered.imp fun hp => hp.writer
    intro a ha b hb
    refine hs.forall_of_forall ?_ ha hb
    exact fun _ _ => rfl

/-- Values as their own texts, and one writer for all clusters. -/
def plainLib : IdentityLib := ⟨.tree, fun _ _ => Uuid.ofNat 9⟩

def plainConfig : WalIdentityConfig := ⟨none, none, none⟩

def plainEnv : OpenEnv := ⟨none, .ok [], Uuid.ofNat 4⟩

/-- A first open, an observation whose sync fails, one that succeeds, and an open after a
power loss. -/
def fencedSchedule : List Label :=
  [.openWal plainConfig plainEnv, .rename, .syncDir, .rename, .syncDir,
   .observe ⟨5⟩, .rename, .fail,
    .observe ⟨3⟩, .rename, .syncDir, .observe ⟨2⟩, .powerLoss 0, .openWal plainConfig plainEnv,
    .rename, .syncDir]

lemma fencedSchedule_start :
    (machine plainLib).start ⟨.settled none, .down, 0, [], []⟩ := ⟨none, rfl⟩

/-- The lives and epochs of all returns. -/
def livesAndEpochs {lib : IdentityLib} (s : State lib) : List (Nat × Nat) :=
  s.returns.map fun r => (r.life, r.epoch.value)

theorem fencedSchedule_returns :
    ∃ s : State plainLib, livesAndEpochs s = [(0, 1), (0, 4), (0, 4), (1, 5)] ∧
      Fenced s.returns s.failures := by
  have hrun : ((machine plainLib).exec ⟨.settled none, .down, 0, [], []⟩ fencedSchedule).map
      livesAndEpochs = some [(0, 1), (0, 4), (0, 4), (1, 5)] := by
    decide +kernel
  obtain ⟨s, run, hs⟩ := Machine.exists_of_exec fencedSchedule_start hrun
  exact ⟨s, hs, epochs_fence run⟩

end Identity

end TeoDB.Storage.Wal

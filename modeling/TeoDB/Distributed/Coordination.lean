import TeoDB.Catalog.Adapter

/-!
# Coordination through table properties

The compaction lock and the registry of query pins live in table properties. Both read the current
values and ask the catalog for an update that expects them.

## Implementation notes

The retry bounds of the transaction (`retries`) and of the registry are arbitrary.
-/

namespace TeoDB.Distributed

open TeoDB.Core Lib Lib.MachineInt Catalog Catalog.Adapter Async

/-- The lock of one node. A node identifier is never empty. -/
structure CompactionLock where
  nodeId : String
  lockTtlMs : Nat
  nodeId_ne : nodeId ≠ ""

inductive LockOutcome where
  | acquired
  | heldBy (owner : String) (lockedSinceMs : Nat)
  | failed (error : TeoDBError)
deriving DecidableEq

/-- Unsigned numbers as the standard library reads them. -/
def parseU64 (text : String) : Option Nat :=
  let digits := match text.toList with
    | '+' :: rest => rest
    | chars => chars
  let value := Nat.ofDigitChars 10 digits 0
  if digits ≠ [] ∧ digits.all Char.isDigit ∧ value ≤ u64Max then some value else none

/-- Milliseconds since the epoch, zero before it. -/
def epochMs (now : Int) : Nat := now.toNat % 2 ^ 64

/-- The time in the lock, zero where it is absent or malformed. -/
def lockedSince (properties : Properties) : Nat :=
  ((properties.find? propLockTs).bind parseU64).getD 0

namespace CompactionLock

variable (lock : CompactionLock)

def isExpired (lockTs nowMs : Nat) : Bool :=
  lockTs == 0 || decide (lock.lockTtlMs < nowMs - lockTs)

/-- The values of a lock as properties. -/
def lockProperties (owner lockTs : String) : Properties :=
  (OrdMap.empty.insert propOwner owner).insert propLockTs lockTs

/-- Take the lock from what it was found to be. -/
def takeRequest (owner lockTs : String) (nowMs : Nat) : PropertiesRequest where
  expected := lockProperties owner lockTs
  updates := lockProperties lock.nodeId (toString nowMs)
  removals := []

def releaseRequest (owner lockTs : String) : PropertiesRequest where
  expected := lockProperties owner lockTs
  updates := OrdMap.empty
  removals := [propOwner, propLockTs]

section

variable {F L P : Type} (env : AdapterEnv F L P) (ident : TableIdent) (retries : Nat)

def refreshLock (owner : String) (lockTs nowMs : Nat) : Prog F L TeoDBError LockOutcome := do
  let updated ← (updateTableProperties env ident
    (lock.takeRequest owner (toString lockTs) nowMs) retries).attempt
  match updated with
  | .ok _ => pure .acquired
  | .error (.conflict _ _ _) => pure (.heldBy "unknown" 0)
  | .error error => pure (.failed error)

/-- Report who holds the lock after a conflict. -/
def reportWinner : Prog F L TeoDBError LockOutcome := do
  let loaded ← (loadTable env ident).attempt
  match loaded with
  | .ok metadata =>
    pure (.heldBy (currentValue metadata.properties propOwner) (lockedSince metadata.properties))
  | .error error => pure (.failed error)

/-- What the update expects of a free lock, and of an expired one. -/
def acquireRequest (owner : String) (lockTs nowMs : Nat) : PropertiesRequest :=
  if owner = "" then lock.takeRequest "" "" nowMs
  else lock.takeRequest owner (toString lockTs) nowMs

def acquireFree (owner : String) (lockTs nowMs : Nat) : Prog F L TeoDBError LockOutcome := do
  let updated ← (updateTableProperties env ident
    (lock.acquireRequest owner lockTs nowMs) retries).attempt
  match updated with
  | .ok _ => pure .acquired
  | .error (.conflict _ _ _) => reportWinner env ident
  | .error error => pure (.failed error)

def acquireFrom (properties : Properties) (nowMs : Nat) : Prog F L TeoDBError LockOutcome :=
  let owner := currentValue properties propOwner
  let lockTs := lockedSince properties
  if owner = lock.nodeId then lock.refreshLock env ident retries owner lockTs nowMs
  else if owner ≠ "" ∧ lock.isExpired lockTs nowMs = false then pure (.heldBy owner lockTs)
  else lock.acquireFree env ident retries owner lockTs nowMs

def tryAcquire : Prog F L TeoDBError LockOutcome := do
  let now ← callNowMs
  let loaded ← (loadTable env ident).attempt
  match loaded with
  | .ok metadata => lock.acquireFrom env ident retries metadata.properties (epochMs now)
  | .error error => pure (.failed error)

def releaseFrom (properties : Properties) : Prog F L TeoDBError Unit :=
  if currentValue properties propOwner = lock.nodeId then do
    let _ ← ((updateTableProperties env ident (releaseRequest (currentValue properties propOwner)
      (currentValue properties propLockTs)) retries).attempt : Prog F L TeoDBError _)
    pure ()
  else pure ()

def release : Prog F L TeoDBError Unit := do
  let loaded ← (loadTable env ident).attempt
  match loaded with
  | .ok metadata => lock.releaseFrom env ident retries metadata.properties
  | .error _ => pure ()

end

end CompactionLock

section

variable {F L P : Type} (env : AdapterEnv F L P) (ident : TableIdent) (retries : Nat)

/-- Set a property from the value that was read. -/
def setRequest (key value : String) (properties : Properties) : PropertiesRequest where
  expected := OrdMap.empty.insert key (currentValue properties key)
  updates := OrdMap.empty.insert key value
  removals := []

/-- Set a property and start again when its value has changed. -/
def casSet (key value : String) : Nat → Prog F L TeoDBError Unit
  | 0 => do
    let metadata ← loadTable env ident
    let _ ← updateTableProperties env ident (setRequest key value metadata.properties) retries
    pure ()
  | again + 1 => do
    let metadata ← loadTable env ident
    let updated ← (updateTableProperties env ident (setRequest key value metadata.properties)
      retries).attempt
    match updated with
    | .ok _ => pure ()
    | .error (.conflict _ _ _) => casSet key value again
    | .error error => throw error

/-- Remove properties from the values that were read. -/
def removeRequest (keys : List String) (properties : Properties) : PropertiesRequest where
  expected := OrdMap.empty.insertAll (keys.map fun key => (key, currentValue properties key))
  updates := OrdMap.empty
  removals := keys

def casRemove (keys : List String) : Nat → Prog F L TeoDBError Unit
  | 0 => do
    let metadata ← loadTable env ident
    if (keys.all fun key => currentValue metadata.properties key == "") then pure ()
    else do
      let _ ← updateTableProperties env ident (removeRequest keys metadata.properties) retries
      pure ()
  | again + 1 => do
    let metadata ← loadTable env ident
    if (keys.all fun key => currentValue metadata.properties key == "") then pure ()
    else do
      let updated ← (updateTableProperties env ident (removeRequest keys metadata.properties)
        retries).attempt
      match updated with
      | .ok _ => pure ()
      | .error (.conflict _ _ _) => casRemove keys again
      | .error error => throw error

inductive CoordinationProgram (F : Type) where
  | adapter (program : Program F)
  | tryAcquire (lock : CompactionLock) (retries : Nat)
  | release (lock : CompactionLock) (retries : Nat)
  | casSet (key value : String) (maxCasRetries retries : Nat)
  | casRemove (keys : List String) (maxCasRetries retries : Nat)

inductive Reply where
  | metadata (metadata : TableMetadata)
  | outcome (outcome : LockOutcome)
  | done
deriving DecidableEq

def coordinationProgram : CoordinationProgram F → Prog F L TeoDBError Reply
  | .adapter p => do
    let metadata ← program env ident p
    pure (.metadata metadata)
  | .tryAcquire lock retries => do
    let outcome ← lock.tryAcquire env ident retries
    pure (.outcome outcome)
  | .release lock retries => do
    lock.release env ident retries
    pure .done
  | .casSet key value maxCasRetries retries => do
    casSet env ident retries key value maxCasRetries
    pure .done
  | .casRemove keys maxCasRetries retries => do
    casRemove env ident retries keys maxCasRetries
    pure .done

/-- Appends, replaces, property updates, locks and pins of any nodes on one table. -/
def coordination : Cluster (interface F L) (CatalogState F L) TeoDBError Reply
    (CoordinationProgram F) (Choice L) where
  start := CatalogState.Start
  program := coordinationProgram env ident
  answer := answer
  interfere := deliver

end

end TeoDB.Distributed

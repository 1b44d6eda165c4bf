import TeoDB.Ingest.Service.Ingest

/-!
# The idempotency index

Each table has an index of the keys that a request holds and of the keys that
completed with a receipt. A key is claimed before the log append, and completed or
aborted after it.

## Implementation notes

The completed keys are in a cache that may forget any of them. What it still holds is an argument
of `claim`, and so is the reading of the clock.
-/

namespace TeoDB.Ingest

open TeoDB.Core Lib Ingest.Service

inductive Claim where
  | acquired
  | duplicate (receipt : IngestReceipt)
  | inProgress
deriving DecidableEq

structure CompletedEntry where
  receipt : IngestReceipt
  claimedAt : Nat
deriving DecidableEq

structure TableIndex where
  inProgress : OrdMap String Nat
  completed : OrdMap String CompletedEntry

namespace TableIndex

def empty : TableIndex := ⟨OrdMap.empty, OrdMap.empty⟩

variable (index : TableIndex)

/-- The receipt of a completed key within its time to live. -/
def completedDuplicate (ttl : Nat) (key : String) (held : Bool)
    (now : Nat) : Option IngestReceipt :=
  match index.completed.find? key with
  | none => none
  | some entry => if held && now - entry.claimedAt ≤ ttl then some entry.receipt else none

/-- Claim a key before the log append. -/
def claim (ttl : Nat) (key : String) (held : Bool) (now : Nat) :
    Claim × TableIndex :=
  match index.completedDuplicate ttl key held now with
  | some receipt => (.duplicate receipt, index)
  | none =>
    let completed := index.completed.erase key
    match index.inProgress.find? key with
    | some claimedAt =>
      if now - claimedAt ≤ ttl then (.inProgress, ⟨index.inProgress, completed⟩)
      else (.acquired, ⟨index.inProgress.insert key now, completed⟩)
    | none => (.acquired, ⟨index.inProgress.insert key now, completed⟩)

/-- Mark an acquired key as completed with its receipt. -/
def complete (key : String) (receipt : IngestReceipt) : TableIndex :=
  match index.inProgress.find? key with
  | none => index
  | some claimedAt =>
    ⟨index.inProgress.erase key, index.completed.insert key ⟨receipt, claimedAt⟩⟩

/-- Release an acquired key after a failure. -/
def abort (key : String) : TableIndex :=
  { index with inProgress := index.inProgress.erase key }

end TableIndex

end TeoDB.Ingest

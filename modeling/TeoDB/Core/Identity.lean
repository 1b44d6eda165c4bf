import TeoDB.Core.WriteProtocol

/-!
# Identities of writers

A writer is identified by its cluster and its deployment slot. Its epoch tells the
lifetimes of one writer apart.

## Implementation notes

A writer identifier is the name-based UUID of the slot in the cluster. The hash is outside
the repository and is a parameter of `WriterId.derive`.
-/

namespace TeoDB.Core

open Lib.MachineInt

structure ClusterId where
  uuid : Uuid
deriving DecidableEq, Inhabited

structure NodeId where
  value : String
deriving DecidableEq, Inhabited

structure WriterSlot where
  value : String
deriving DecidableEq, Inhabited

def WriterId.derive (newV5 : Uuid → String → Uuid) (clusterId : ClusterId)
    (writerSlot : WriterSlot) : WriterId :=
  ⟨newV5 clusterId.uuid writerSlot.value⟩

def maxIdentityComponentBytes : Nat := 128

def validateIdentityComponent (field value : String) : TeoDBResult Unit :=
  if value.isEmpty then .error (.config s!"{field} must not be empty")
  else if value.utf8ByteSize > maxIdentityComponentBytes then
    .error (.config s!"{field} exceeds {maxIdentityComponentBytes} bytes")
  else if value.toList.all fun c => c.isAlphanum || c == '.' || c == '_' || c == '-' then .ok ()
  else
    .error (.config s!"{field} may contain only ASCII letters, digits, '.', '_' and '-'")

def NodeId.new (value : String) : TeoDBResult NodeId :=
  (validateIdentityComponent "cluster.node_id" value).map fun _ => ⟨value⟩

def WriterSlot.new (value : String) : TeoDBResult WriterSlot :=
  (validateIdentityComponent "cluster.writer_slot" value).map fun _ => ⟨value⟩

/-- The next epoch, unless the numbers are used up. -/
def WriterEpoch.checkedNext (epoch : WriterEpoch) : TeoDBResult WriterEpoch :=
  match checkedAdd epoch.value 1 with
  | some value => .ok ⟨value⟩
  | none => .error (.config "writer epoch exhausted")

lemma WriterEpoch.checkedNext_eq_ok {ep next : WriterEpoch} :
    ep.checkedNext = .ok next ↔ ep.value + 1 ≤ u64Max ∧ next.value = ep.value + 1 := by
  obtain ⟨v⟩ := next
  unfold checkedNext checkedAdd
  split_ifs with h <;> simp [h, eq_comm]

structure ResolvedIdentity where
  clusterId : ClusterId
  nodeId : NodeId
  writerSlot : WriterSlot
  writerId : WriterId
  writerEpoch : WriterEpoch
deriving DecidableEq

end TeoDB.Core

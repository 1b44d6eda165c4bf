import Mathlib

/-!
# Identifiers of tables, writers and write positions

Generations and epochs are `u64` in the source and natural numbers here, snapshot and field
identifiers are `i64` and `i32` and integers here.
-/

namespace TeoDB.Core

/-- A 128-bit identifier, compared as its big-endian number. -/
structure Uuid where
  bits : BitVec 128
deriving DecidableEq

namespace Uuid

def ofNat (n : Nat) : Uuid := ⟨BitVec.ofNat 128 n⟩

def toNat (u : Uuid) : Nat := u.bits.toNat

def nil : Uuid := ⟨0⟩

def isNil (u : Uuid) : Bool := u.bits == 0

lemma toNat_injective : Function.Injective toNat := fun a b h => by
  cases a
  cases b
  exact congrArg Uuid.mk (BitVec.eq_of_toNat_eq h)

instance : LinearOrder Uuid := LinearOrder.lift' toNat toNat_injective

instance : Inhabited Uuid := ⟨nil⟩

end Uuid

/-- Fully-qualified table identifier within a namespace. -/
structure TableIdent where
  nameSpace : String
  name : String
deriving DecidableEq, Inhabited

namespace TableIdent

def fullyQualified (t : TableIdent) : String := s!"{t.nameSpace}.{t.name}"

instance : ToString TableIdent := ⟨fullyQualified⟩

end TableIdent

structure WriterId where
  uuid : Uuid
deriving DecidableEq, Inhabited

structure CommitId where
  uuid : Uuid
deriving DecidableEq, Inhabited

structure WriterEpoch where
  value : Nat
deriving DecidableEq, Inhabited

namespace WriterEpoch

def zero : WriterEpoch := ⟨0⟩

instance : LT WriterEpoch := ⟨fun a b => a.value < b.value⟩

instance (a b : WriterEpoch) : Decidable (a < b) :=
  inferInstanceAs (Decidable (a.value < b.value))

end WriterEpoch

end TeoDB.Core

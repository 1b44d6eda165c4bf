import Mathlib

/-!
# Ledgers of ranges above a watermark

Each key has a watermark. A range of numbers is entered under a key only if it starts above the
watermark, which then moves to its end. So no entry reaches beyond the watermark of its key, and no
number of a key is covered by two entries.
-/

namespace TeoDB.Lib

/-- An inclusive range entered under a key. -/
structure LedgerEntry (κ : Type*) where
  key : κ
  lo : Nat
  hi : Nat
deriving DecidableEq

namespace LedgerEntry

variable {κ : Type*} [DecidableEq κ]

def covers (k : κ) (g : Nat) (e : LedgerEntry κ) : Bool :=
  decide (e.key = k) && decide (e.lo ≤ g) && decide (g ≤ e.hi)

@[simp] lemma covers_iff (k : κ) (g : Nat) (e : LedgerEntry κ) :
    covers k g e = true ↔ e.key = k ∧ e.lo ≤ g ∧ g ≤ e.hi := by
  simp [covers, and_assoc]

end LedgerEntry

open LedgerEntry

structure WatermarkLedger (κ : Type*) [DecidableEq κ] where
  entries : List (LedgerEntry κ)
  mark : κ → Nat
  le_mark : ∀ e ∈ entries, e.hi ≤ mark e.key
  once : ∀ k g, entries.countP (covers k g) ≤ 1

namespace WatermarkLedger

variable {κ : Type*} [DecidableEq κ]

/-- The ledger without entries. -/
def ofMarks (mark : κ → Nat) : WatermarkLedger κ where
  entries := []
  mark := mark
  le_mark := by simp
  once := by simp

/-- Numbers above the watermark are not covered yet. -/
theorem countP_covers_eq_zero (l : WatermarkLedger κ) {k : κ} {g : Nat} (h : l.mark k < g) :
    l.entries.countP (covers k g) = 0 := by
  rw [List.countP_eq_zero]
  intro e he hcov
  obtain ⟨hkey, _, hhi⟩ := (covers_iff k g e).mp hcov
  have hm := l.le_mark e he
  rw [hkey] at hm
  omega

/-- Enter a range that starts above the watermark of its key. -/
def publish (l : WatermarkLedger κ) (e : LedgerEntry κ) (above : l.mark e.key < e.lo)
    (ordered : e.lo ≤ e.hi) : WatermarkLedger κ where
  entries := l.entries ++ [e]
  mark := Function.update l.mark e.key e.hi
  le_mark := by
    intro x hx
    rcases List.mem_append.mp hx with hx | hx
    · have hmark := l.le_mark x hx
      by_cases hkey : x.key = e.key
      · rw [hkey, Function.update_self]
        rw [hkey] at hmark
        omega
      · rwa [Function.update_of_ne hkey]
    · obtain rfl := List.mem_singleton.mp hx
      simp
  once := by
    intro k g
    rw [List.countP_append, List.countP_singleton]
    by_cases hcovers : covers k g e = true
    · obtain ⟨hkey, hlo, _⟩ := (covers_iff k g e).mp hcovers
      have hmark : l.mark k < g := by
        rw [← hkey]
        omega
      have hbefore := l.countP_covers_eq_zero hmark
      simp [hbefore, hcovers]
    · simpa [hcovers] using l.once k g

end WatermarkLedger

end TeoDB.Lib

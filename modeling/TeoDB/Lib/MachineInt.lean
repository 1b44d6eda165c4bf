import Mathlib

/-!
# Unsigned 64-bit arithmetic on natural numbers

A value of the 64-bit type is a natural number of at most `u64Max`. The lemmas say when a wrapping
result is the mathematical one.
-/

namespace TeoDB.Lib.MachineInt

/-- The largest unsigned 64-bit value. -/
def u64Max : Nat := 2 ^ 64 - 1

lemma hundred_le_u64Max : 100 ≤ u64Max := by decide

def checkedAdd (a b : Nat) : Option Nat :=
  if a + b ≤ u64Max then some (a + b) else none

def saturatingAdd (a b : Nat) : Nat := min (a + b) u64Max

def saturatingSub (a b : Nat) : Nat := a - b

def wrappingAdd (a b : Nat) : Nat := (a + b) % 2 ^ 64

/-- Summation by repeated wrapping addition, from the left. -/
def wrappingSum (xs : List Nat) : Nat := xs.foldl wrappingAdd 0

lemma checkedAdd_eq_some {a b c : Nat} :
    checkedAdd a b = some c ↔ a + b ≤ u64Max ∧ a + b = c := by
  simp [checkedAdd]

lemma wrappingAdd_of_le {a b : Nat} (h : a + b ≤ u64Max) : wrappingAdd a b = a + b := by
  rw [wrappingAdd, Nat.mod_eq_of_lt]
  simp only [u64Max] at h
  omega

private lemma foldl_wrappingAdd (xs : List Nat) (acc : Nat) (h : acc < 2 ^ 64) :
    xs.foldl wrappingAdd acc = (acc + xs.sum) % 2 ^ 64 := by
  induction xs generalizing acc with
  | nil => exact (Nat.mod_eq_of_lt h).symm
  | cons x rest ih =>
    have hlt : wrappingAdd acc x < 2 ^ 64 := Nat.mod_lt _ (by decide)
    rw [List.foldl_cons, ih _ hlt, List.sum_cons, wrappingAdd, Nat.mod_add_mod, Nat.add_assoc]

lemma wrappingSum_eq (xs : List Nat) : wrappingSum xs = xs.sum % 2 ^ 64 := by
  rw [wrappingSum, foldl_wrappingAdd xs 0 (by decide), Nat.zero_add]

/-- A sum that fits is computed exactly. -/
theorem wrappingSum_of_le {xs : List Nat} (h : xs.sum ≤ u64Max) : wrappingSum xs = xs.sum := by
  rw [wrappingSum_eq, Nat.mod_eq_of_lt]
  simp only [u64Max] at h
  omega

lemma wrappingSum_append (xs ys : List Nat) :
    wrappingSum (xs ++ ys) = wrappingAdd (wrappingSum xs) (wrappingSum ys) := by
  simp only [wrappingSum_eq, wrappingAdd, List.sum_append, Nat.add_mod_mod, Nat.mod_add_mod]

lemma wrappingSum_perm {xs ys : List Nat} (h : xs.Perm ys) : wrappingSum xs = wrappingSum ys := by
  rw [wrappingSum_eq, wrappingSum_eq, h.sum_eq]

lemma wrappingAdd_comm (a b : Nat) : wrappingAdd a b = wrappingAdd b a := by
  rw [wrappingAdd, wrappingAdd, Nat.add_comm]

end TeoDB.Lib.MachineInt

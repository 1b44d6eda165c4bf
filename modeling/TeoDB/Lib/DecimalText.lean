import Mathlib

/-!
# Decimal numbers as texts

A decimal text is a sign, digits, and possibly a point with further digits. All its digits together
are the mantissa.
-/

namespace TeoDB.Lib.DecimalText

/-- The text of an integer. -/
def integer (i : Int) : List Char :=
  if i < 0 then '-' :: Nat.toDigits 10 i.natAbs else Nat.toDigits 10 i.natAbs

/-- Digits with zeros before them up to a width. -/
def padded (width n : Nat) : List Char :=
  List.replicate (width - (Nat.toDigits 10 n).length) '0' ++ Nat.toDigits 10 n

/-- A text that is not empty and has digits only. -/
def isDigits (text : List Char) : Bool := !text.isEmpty && text.all Char.isDigit

/-- The number that the digits of a text without sign make up. -/
def unsignedMantissa (text : List Char) : Option Nat :=
  match text.splitOn '.' with
  | [whole] => if isDigits whole then some (Nat.ofDigitChars 10 whole 0) else none
  | [whole, frac] =>
    if isDigits whole && isDigits frac then some (Nat.ofDigitChars 10 (whole ++ frac) 0) else none
  | _ => none

/-- The number that the digits of a text make up, with its sign. -/
def mantissa : List Char → Option Int
  | '-' :: rest => (unsignedMantissa rest).map fun m : Nat => -(m : Int)
  | text => (unsignedMantissa text).map Int.ofNat

lemma all_toDigits (n : Nat) : (Nat.toDigits 10 n).all Char.isDigit = true :=
  List.all_eq_true.mpr fun _ hc => Nat.isDigit_of_mem_toDigits (by decide) (by decide) hc

@[simp] lemma isDigits_toDigits (n : Nat) : isDigits (Nat.toDigits 10 n) = true := by
  simp [isDigits, all_toDigits, Nat.toDigits_ne_nil]

@[simp] lemma isDigits_padded (w n : Nat) : isDigits (padded w n) = true := by
  have hzeros : (List.replicate (w - (Nat.toDigits 10 n).length) '0').all Char.isDigit = true := by
    rw [List.all_replicate]
    split_ifs <;> decide
  simp [isDigits, padded, all_toDigits, Nat.toDigits_ne_nil, hzeros]

lemma notMem_of_isDigits {text : List Char} {c : Char} (h : isDigits text = true)
    (hc : c.isDigit = false) : c ∉ text := by
  intro hmem
  rw [isDigits, Bool.and_eq_true, List.all_eq_true] at h
  rw [h.2 c hmem] at hc
  cases hc

lemma splitOn_of_isDigits {text : List Char} (h : isDigits text = true) :
    text.splitOn '.' = [text] := by
  have hpoint : ∀ part ∈ [text], '.' ∉ part := by
    intro part hp
    rw [List.mem_singleton.mp hp]
    exact notMem_of_isDigits h (by decide)
  simpa using List.splitOn_intercalate '.' hpoint (List.cons_ne_nil _ _)

lemma length_padded {w n : Nat} (hwd : 0 < w) (h : n < 10 ^ w) : (padded w n).length = w := by
  have hle := (Nat.length_toDigits_le_iff (by decide : 1 < 10) hwd).mpr h
  rw [padded, List.length_append, List.length_replicate]
  omega

lemma ofDigitChars_padded (w n : Nat) : Nat.ofDigitChars 10 (padded w n) 0 = n := by
  rw [padded, Nat.ofDigitChars_append, Nat.ofDigitChars_replicate_zero, Nat.mul_zero,
    Nat.ofDigitChars_ten_toDigits]

@[simp] lemma unsignedMantissa_toDigits (n : Nat) :
    unsignedMantissa (Nat.toDigits 10 n) = some n := by
  simp only [unsignedMantissa, splitOn_of_isDigits (isDigits_toDigits n), isDigits_toDigits,
    if_true, Nat.ofDigitChars_ten_toDigits]

lemma unsignedMantissa_point {whole frac w : Nat} (hwd : 0 < w) (h : frac < 10 ^ w) :
    unsignedMantissa (Nat.toDigits 10 whole ++ '.' :: padded w frac) =
      some (10 ^ w * whole + frac) := by
  have hsp : (Nat.toDigits 10 whole ++ '.' :: padded w frac).splitOn '.' =
      [Nat.toDigits 10 whole, padded w frac] := by
    rw [List.splitOn_append_cons_self, splitOn_of_isDigits (isDigits_toDigits whole),
      splitOn_of_isDigits (isDigits_padded w frac)]
    rfl
  simp only [unsignedMantissa, hsp, isDigits_toDigits, isDigits_padded, Bool.and_self, if_true,
    Nat.ofDigitChars_append, Nat.ofDigitChars_ten_toDigits]
  rw [Nat.ofDigitChars_eq_ofDigitChars_zero, ofDigitChars_padded, length_padded hwd h]

/-- A text that begins with a digit has no sign. -/
theorem mantissa_of_isDigits {ds rest : List Char} (h : isDigits ds = true) :
    mantissa (ds ++ rest) = (unsignedMantissa (ds ++ rest)).map Int.ofNat := by
  cases ds with
  | nil => cases h
  | cons c ds =>
    have hs : c ≠ '-' := by
      rintro rfl
      exact notMem_of_isDigits h (by decide) List.mem_cons_self
    rw [List.cons_append, mantissa]
    intro rest' heq
    exact hs (List.cons.inj heq).1

lemma mantissa_integer (i : Int) : mantissa (integer i) = some i := by
  rw [integer]
  split_ifs with hneg
  · simp only [mantissa, unsignedMantissa_toDigits, Option.map_some, Option.some.injEq]
    omega
  · have hdg : mantissa (Nat.toDigits 10 i.natAbs ++ []) = _ :=
      mantissa_of_isDigits (isDigits_toDigits i.natAbs)
    rw [List.append_nil] at hdg
    simp only [hdg, unsignedMantissa_toDigits, Option.map_some, Option.some.injEq]
    change (i.natAbs : Int) = i
    omega

/-- An integer with a point and further digits: the sign is that of the integer. -/
theorem mantissa_integer_point (whole : Int) {frac w : Nat} (hwd : 0 < w) (h : frac < 10 ^ w) :
    mantissa (integer whole ++ '.' :: padded w frac) =
      some (if whole < 0 then 10 ^ w * whole - frac else 10 ^ w * whole + frac) := by
  have hpoi : unsignedMantissa (Nat.toDigits 10 whole.natAbs ++ '.' :: padded w frac) = _ :=
    unsignedMantissa_point hwd h
  rw [integer]
  split_ifs with hneg
  · rw [List.cons_append, mantissa, hpoi, Option.map_some]
    have habs : (whole.natAbs : Int) = -whole := by omega
    rw [Nat.cast_add, Nat.cast_mul, habs]
    push_cast
    ring_nf
  · rw [mantissa_of_isDigits (isDigits_toDigits _), hpoi, Option.map_some]
    have habs : (whole.natAbs : Int) = whole := by omega
    change some ((10 ^ w * whole.natAbs + frac : Nat) : Int) = _
    rw [Nat.cast_add, Nat.cast_mul, habs]
    push_cast
    rfl

end TeoDB.Lib.DecimalText

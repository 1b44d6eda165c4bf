import TeoDB.Storage.Location

/-!
# Writing a stream to Parquet files

Batches are encoded into one open file. When its encoded size reaches the target, the
file is finished under a numbered name and the next batch opens another one. A stream
that fits one file is written under the given name itself.

## Implementation notes

The encoder is a parameter: what matters of it is the number of bytes that it has
produced for the batches of the open file. Uploads succeed.
-/

namespace TeoDB.Storage

/-- A number with at least four digits. -/
def paddedIndex (index : Nat) : List Char :=
  List.replicate (4 - (Nat.toDigits 10 index).length) '0' ++ Nat.toDigits 10 index

/-- The location of a split file. -/
def fileLocation (base : ObjectLocation) (index : Nat) : ObjectLocation :=
  let key :=
    match stripSuffix? "-f0000.parquet".toList base.key.toList with
    | some stem => stem ++ "-f".toList ++ paddedIndex index ++ ".parquet".toList
    | none =>
      match stripSuffix? ".parquet".toList base.key.toList with
      | some stem => stem ++ "-".toList ++ paddedIndex index ++ ".parquet".toList
      | none => base.key.toList ++ "-".toList ++ paddedIndex index
  { base with key := String.ofList key }

section

variable {R : Type} (encoded : List (List R) → Nat) (targetFileBytes : Nat) (base : ObjectLocation)

/-- The files of a stream with their batches, from the index of the open file and its
batches on. -/
def writeBatches : Nat → List (List R) → List (List R) → List (ObjectLocation × List (List R))
  | _, [], [] => []
  | index, pending, [] => [(if index = 0 then base else fileLocation base index, pending)]
  | index, pending, batch :: rest =>
    if batch.isEmpty then writeBatches index pending rest
    else if targetFileBytes ≤ encoded (pending ++ [batch]) then
      (fileLocation base index, pending ++ [batch]) :: writeBatches (index + 1) [] rest
    else writeBatches index (pending ++ [batch]) rest

def writeSortedStream (batches : List (List R)) : List (ObjectLocation × List (List R)) :=
  writeBatches encoded targetFileBytes base 0 [] batches

end

section

lemma ofDigitChars_paddedIndex (i : Nat) : Nat.ofDigitChars 10 (paddedIndex i) 0 = i := by
  rw [paddedIndex, Nat.ofDigitChars_append, Nat.ofDigitChars_replicate_zero, Nat.mul_zero,
    Nat.ofDigitChars_toDigits (by omega) (by omega)]

lemma paddedIndex_injective : Function.Injective paddedIndex :=
  Function.LeftInverse.injective ofDigitChars_paddedIndex

lemma fileLocation_injective (base : ObjectLocation) :
    Function.Injective (fileLocation base) := by
  intro i j h
  have hkey := congrArg (fun l : ObjectLocation => l.key.toList) h
  simp only [fileLocation, String.toList_ofList] at hkey
  apply paddedIndex_injective
  generalize stripSuffix? "-f0000.parquet".toList base.key.toList = flushed at hkey
  generalize stripSuffix? ".parquet".toList base.key.toList = plain at hkey
  cases flushed with
  | some stem => simpa using hkey
  | none =>
    cases plain with
    | some stem => simpa using hkey
    | none => simpa using hkey

variable {R : Type} {encoded : List (List R) → Nat} {targetFileBytes : Nat} {base : ObjectLocation}

/-- All rows are written, in their order. -/
theorem flatten_writeBatches (i : Nat) (pend bs : List (List R)) :
    ((writeBatches encoded targetFileBytes base i pend bs).flatMap
      Prod.snd).flatten = pend.flatten ++ bs.flatten := by
  induction bs generalizing i pend with
  | nil => cases pend <;> simp [writeBatches]
  | cons batch rest ih =>
    rw [writeBatches]
    split_ifs with hem hfull
    · rw [ih, List.flatten_cons, List.isEmpty_iff.mp hem, List.nil_append]
    · rw [List.flatMap_cons, List.flatten_append, ih]
      simp
    · rw [ih]
      simp

variable {file : ObjectLocation × List (List R)}

lemma location_writeBatches {idx : Nat} {pend bs : List (List R)}
    (h : file ∈ writeBatches encoded targetFileBytes base idx pend bs) :
    (idx = 0 ∧ file.1 = base) ∨ ∃ i, idx ≤ i ∧ file.1 = fileLocation base i := by
  induction bs generalizing idx pend with
  | nil =>
    cases pend with
    | nil => cases h
    | cons bt rest =>
      rw [writeBatches, List.mem_singleton] at h
      · split_ifs at h with hix
        · exact .inl ⟨hix, by rw [h]⟩
        · exact .inr ⟨idx, le_rfl, by rw [h]⟩
      · simp
  | cons bt rest ih =>
    rw [writeBatches] at h
    split_ifs at h with hempty hfull
    · exact ih h
    · rcases List.mem_cons.mp h with rfl | h
      · exact .inr ⟨idx, le_rfl, rfl⟩
      · rcases ih h with ⟨hzero, _⟩ | ⟨i, hi, hloc⟩
        · omega
        · exact .inr ⟨i, by omega, hloc⟩
    · exact ih h

lemma locations_writeBatches_nodup (idx : Nat) (pend bs : List (List R)) :
    ((writeBatches encoded targetFileBytes base idx pend bs).map Prod.fst).Nodup := by
  induction bs generalizing idx pend with
  | nil => cases pend <;> simp [writeBatches]
  | cons batch rest ih =>
    rw [writeBatches]
    split_ifs with hempty hfull
    · exact ih _ _
    · rw [List.map_cons, List.nodup_cons]
      refine ⟨fun hmem => ?_, ih _ _⟩
      obtain ⟨file, hf, hloc⟩ := List.mem_map.mp hmem
      rcases location_writeBatches hf with ⟨hzero, _⟩ | ⟨i, hi, hfil⟩
      · omega
      · have heq := fileLocation_injective base (hloc.symm.trans hfil)
        omega
    · exact ih _ _

/-- Every file holds a row: batches without rows are skipped. -/
theorem flatten_ne_nil_of_mem_writeBatches {i : Nat} {pend bs : List (List R)}
    (hpd : ∀ bt ∈ pend, bt ≠ []) (h : file ∈ writeBatches encoded targetFileBytes base i pend bs) :
    file.2.flatten ≠ [] := by
  induction bs generalizing i pend with
  | nil =>
    cases pend with
    | nil => cases h
    | cons bt rest =>
      rw [writeBatches, List.mem_singleton] at h
      · subst h
        simp [hpd bt List.mem_cons_self]
      · simp
  | cons bt rest ih =>
    rw [writeBatches] at h
    split_ifs at h with hem hfull
    · exact ih hpd h
    · rcases List.mem_cons.mp h with rfl | h
      · simpa using fun _ => hem
      · exact ih (by simp) h
    · apply ih _ h
      intro b hb
      rcases List.mem_append.mp hb with hb | hb
      · exact hpd b hb
      · rw [List.mem_singleton.mp hb]
        simpa using hem

lemma flatten_ne_nil_of_mem_writeSortedStream {bs : List (List R)}
    (h : file ∈ writeSortedStream encoded targetFileBytes base bs) : file.2.flatten ≠ [] :=
  flatten_ne_nil_of_mem_writeBatches (by simp) h

/-- The files of a write stand in one bucket, so their keys tell them apart. -/
theorem keys_writeSortedStream_nodup (bs : List (List R)) :
    ((writeSortedStream encoded targetFileBytes base bs).map fun file =>
      file.1.key).Nodup := by
  have hba : ∀ file ∈ writeSortedStream encoded targetFileBytes base bs,
      file.1 = { base with key := file.1.key } := by
    intro file hf
    rcases location_writeBatches hf with ⟨_, hloc⟩ | ⟨i, _, hloc⟩
    · rw [hloc]
    · rw [hloc]
      rfl
  have hnd := @locations_writeBatches_nodup R encoded targetFileBytes base 0 [] bs
  rw [← writeSortedStream] at hnd
  rw [List.Nodup, List.pairwise_map] at hnd ⊢
  apply hnd.imp_of_mem
  intro a b ha hb hne hkey
  apply hne
  rw [hba a ha, hba b hb, hkey]

end

end TeoDB.Storage

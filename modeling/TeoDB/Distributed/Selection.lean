import TeoDB.Query.PositionDeletes

/-!
# Selection of files for compaction

Within a partition the small files, the files of middle size if there are enough of them, and the
large files under delete pressure are candidates. As many of them as the limits allow are selected,
the smallest first.

## Implementation notes

The threshold of delete pressure, a comparison of floating-point numbers, is a predicate on counts.
-/

namespace TeoDB.Distributed

open TeoDB.Core Lib Lib.MachineInt Catalog Storage
open Storage.Wal Query

/-- The sizes and limits that one run of the selection goes by. -/
structure SelectionConfig where
  targetFileBytes : Nat
  minFilesPerCompaction : Nat
  maxFilesPerCompaction : Nat
  maxBytesPerCompaction : Nat
  /-- Whether so many deletes among so many rows are above the threshold. -/
  exceedsDeletePressure : Nat → Nat → Bool

section

variable {P : Type} (config : SelectionConfig) (deleteCounts : OrdMap String Nat)

/-- The deletes of a file, by its location or by a key that records it. -/
def deleteCountForFile (file : DataFile P) : Nat :=
  let key := file.path.key
  let exact := (deleteCounts.find? file.path.toUri).or (deleteCounts.find? key)
  let listed := deleteCounts.entries.find? fun e =>
    recordsKey e.1 key || e.1 == file.path.toUri
  (exact.or (listed.map Prod.snd)).getD 0

def hasDeletePressure (file : DataFile P) : Bool :=
  if file.recordCount = 0 then false
  else config.exceedsDeletePressure (deleteCountForFile deleteCounts file) file.recordCount

/-- Retain the files as long as the bytes so far are within the budget. -/
def retainWithin (maxBytes : Nat) : Nat → List (DataFile P) → List (DataFile P)
  | _, [] => []
  | total, file :: rest =>
    let total := saturatingAdd total file.fileSizeBytes
    if total ≤ maxBytes then file :: retainWithin maxBytes total rest
    else retainWithin maxBytes total rest

/-- The candidates of a partition before they are capped. -/
def partitionCandidates (files : List (DataFile P)) (smallThreshold midThreshold : Nat) :
    List (DataFile P) :=
  let smallFiles := files.filter fun f => f.fileSizeBytes < smallThreshold
  let midFiles := files.filter fun f =>
    smallThreshold ≤ f.fileSizeBytes ∧ f.fileSizeBytes < midThreshold
  let pressuredFiles := files.filter fun f =>
    midThreshold ≤ f.fileSizeBytes ∧ hasDeletePressure config deleteCounts f
  smallFiles ++ (if config.minFilesPerCompaction ≤ midFiles.length then midFiles else []) ++
    pressuredFiles

/-- The files of a partition that one run compacts. -/
def selectWithinPartition (files : List (DataFile P)) (smallThreshold midThreshold : Nat) :
    List (DataFile P) :=
  let candidates := partitionCandidates config deleteCounts files smallThreshold midThreshold
  let sorted := candidates.insertionSort fun a b => a.fileSizeBytes ≤ b.fileSizeBytes
  let capped := sorted.take config.maxFilesPerCompaction
  if 0 < config.maxBytesPerCompaction then retainWithin config.maxBytesPerCompaction 0 capped
  else capped

end

section

variable {P : Type}

def totalBytes (files : List (DataFile P)) : Nat := (files.map DataFile.fileSizeBytes).sum

/-- Some files are within both limits of a run. -/
def SelectionConfig.Allows (config : SelectionConfig) (files : List (DataFile P)) : Prop :=
  files.length ≤ config.maxFilesPerCompaction ∧
    (0 < config.maxBytesPerCompaction → totalBytes files ≤ config.maxBytesPerCompaction)

/-- No files of a sorted list are smaller together than as many first ones. -/
lemma totalBytes_take_le {sorted l : List (DataFile P)} (h : l.Sublist sorted)
    (hs : sorted.Pairwise fun a b => a.fileSizeBytes ≤ b.fileSizeBytes) :
    totalBytes (sorted.take l.length) ≤ totalBytes l := by
  induction sorted generalizing l with
  | nil => simp [totalBytes]
  | cons a rest ih =>
    cases l with
    | nil => simp
    | cons b l =>
      obtain ⟨ha, hs⟩ := List.pairwise_cons.mp hs
      have hsum := ih h.of_cons_cons hs
      have hab : a.fileSizeBytes ≤ b.fileSizeBytes := by
        rcases List.mem_cons.mp (h.subset List.mem_cons_self) with rfl | hb
        · exact le_refl _
        · exact ha b hb
      simp only [totalBytes, List.length_cons, List.take_succ_cons, List.map_cons,
        List.sum_cons] at hsum ⊢
      omega

/-- The files that are retained are first ones, and as many as fit. -/
lemma retainWithin_spec {maxBytes : Nat} (hmax : maxBytes < u64Max) (total : Nat)
    (l : List (DataFile P)) : let retained := retainWithin maxBytes total l
    retained <+: l ∧ (retained = [] ∨ total + totalBytes retained ≤ maxBytes) ∧
      ∀ k ≤ l.length, total + totalBytes (l.take k) ≤ maxBytes → k ≤ retained.length := by
  induction l generalizing total with
  | nil => simp [retainWithin]
  | cons f rest ih =>
    obtain ⟨hpre, hsum, hmost⟩ := ih (saturatingAdd total f.fileSizeBytes)
    by_cases hle : total + f.fileSizeBytes ≤ maxBytes
    · have hsat : saturatingAdd total f.fileSizeBytes = total + f.fileSizeBytes :=
        min_eq_left (by omega)
      rw [hsat] at hpre hsum hmost
      simp only [retainWithin, hsat, if_pos hle]
      refine ⟨(List.prefix_cons_inj f).mpr hpre, .inr ?_, ?_⟩
      · rcases hsum with hnil | hsum
        · simpa [hnil, totalBytes] using hle
        · simpa [totalBytes, Nat.add_assoc] using hsum
      · rintro (_ | k) hk hfit
        · exact Nat.zero_le _
        · refine Nat.succ_le_succ (hmost k (Nat.le_of_succ_le_succ hk) ?_)
          simpa [totalBytes, Nat.add_assoc] using hfit
    · -- the running total also counts this file, so nothing behind it is retained either
      have hlt : maxBytes < saturatingAdd total f.fileSizeBytes := by
        rw [saturatingAdd]
        omega
      simp only [retainWithin, if_neg (not_le.mpr hlt), hsum.resolve_right (by omega)]
      refine ⟨List.nil_prefix, .inl trivial, ?_⟩
      rintro (_ | k) hk hfit
      · exact le_refl _
      · simp only [totalBytes, List.take_succ_cons, List.map_cons, List.sum_cons] at hfit
        omega

variable (config : SelectionConfig) (deleteCounts : OrdMap String Nat)

/-- The first candidates by size are selected, within both limits, and no other candidates within
the limits are more files. -/
theorem selectWithinPartition_most (files : List (DataFile P)) (smallThreshold midThreshold : Nat)
    (hmax : config.maxBytesPerCompaction < u64Max) :
    let candidates := partitionCandidates config deleteCounts files smallThreshold midThreshold
    let selected := selectWithinPartition config deleteCounts files smallThreshold midThreshold
    selected <+: candidates.insertionSort (fun a b => a.fileSizeBytes ≤ b.fileSizeBytes) ∧
      config.Allows selected ∧ ∀ other, other.Subperm candidates → config.Allows other →
        other.length ≤ selected.length := by
  intro candidates selected
  set sorted := candidates.insertionSort fun a b => a.fileSizeBytes ≤ b.fileSizeBytes
  have hperm : sorted.Perm candidates := List.perm_insertionSort _ _
  set capped := sorted.take config.maxFilesPerCompaction with hcapped
  have hlen : ∀ other : List (DataFile P), other.Subperm candidates → config.Allows other →
      other.length ≤ capped.length := by
    intro other hsub hok
    rw [hcapped, List.length_take, hperm.length_eq]
    exact le_min hok.1 hsub.length_le
  have hsel : selected = if 0 < config.maxBytesPerCompaction then
      retainWithin config.maxBytesPerCompaction 0 capped else capped := rfl
  split_ifs at hsel with hpos
  · obtain ⟨hpre, hsum, hmost⟩ := retainWithin_spec hmax 0 capped
    rw [← hsel, Nat.zero_add] at hsum
    rw [← hsel] at hpre hmost
    refine ⟨hpre.trans (List.take_prefix _ _), ⟨?_, fun _ => ?_⟩, ?_⟩
    · exact hpre.length_le.trans (List.length_take_le _ _)
    · rcases hsum with hnil | hsum
      · simp [hnil, totalBytes]
      · exact hsum
    · intro other hsub hok
      obtain ⟨l, hl, hsubl⟩ := hsub.trans hperm.symm.subperm
      have hfirst := totalBytes_take_le hsubl (List.pairwise_insertionSort _ _)
      have htotal : totalBytes l = totalBytes other := (hl.map _).sum_eq
      refine hmost _ (hlen other hsub hok) ?_
      rw [hcapped, List.take_take, min_eq_left hok.1, ← hl.length_eq, Nat.zero_add]
      exact (hfirst.trans_eq htotal).trans (hok.2 hpos)
  · rw [hsel]
    exact ⟨List.take_prefix _ _, ⟨List.length_take_le _ _, fun h => absurd h hpos⟩, hlen⟩

end

/-- Three files or ten bytes at most. -/
def tenBytes : SelectionConfig := ⟨64, 8, 3, 10, fun _ _ => false⟩

def sized (bytes : Nat) : DataFile Unit := ⟨.data, ⟨.s3, some "lake", "f"⟩, 0, (), 1, bytes⟩

theorem selectWithinPartition_most_tenBytes :
    let selected := selectWithinPartition tenBytes .empty ([9, 4, 5].map sized) 16 16
    selected.map DataFile.fileSizeBytes = [4, 5] ∧ tenBytes.Allows selected :=
  ⟨by decide +kernel, (selectWithinPartition_most tenBytes .empty _ 16 16 (by decide)).2.1⟩

end TeoDB.Distributed

import TeoDB.Storage.Wal.Gc

/-!
# The segment writer

One task owns the open segment. It creates a file, publishes the sequence number
of the file for the collector, and writes groups of frames until it closes the
segment. A group that fails is cut off again, if that succeeds, and the segment
is closed.

## Implementation notes

A file is modelled by what a scan of it yields. The published number is the
sequence number plus one, and zero when no segment is open. Sizes are left to the
caller: a segment may be closed before any group.
-/

namespace TeoDB.Storage.Wal

open TeoDB.Core Lib

/-- What the writer task is doing with its segment. -/
inductive WriterPhase where
  | idle
  | opening (seq : Nat)
  | writing (seq : Nat) (groupStart : Nat)
deriving DecidableEq

structure SegmentWriter where
  nextSeq : Nat
  phase : WriterPhase
  currentSeq : Nat
deriving DecidableEq

/-- The log directory and the writer task that owns it. -/
structure LogDir where
  disk : OrdMap Nat SegmentScan
  writer : SegmentWriter
deriving DecidableEq

inductive WriterStep where
  | createSegment
  | createFails
  | publish
  | writeFrame (frame : ScanFrame)
  | finishGroup
  | failGroup (keep : Nat)
  | closeCurrent
deriving DecidableEq

namespace LogDir

variable (disk : OrdMap Nat SegmentScan)

/-- Open a file for appending; a file that exists keeps its content. -/
def openFile (seq : Nat) : OrdMap Nat SegmentScan :=
  match disk.find? seq with
  | some _ => disk
  | none => disk.insert seq ⟨[], false⟩

/-- Change a file through its handle; a file that has been removed stays removed. -/
def updateFile (seq : Nat) (change : List ScanFrame → List ScanFrame) : OrdMap Nat SegmentScan :=
  match disk.find? seq with
  | some scan => disk.insert seq { scan with frames := change scan.frames }
  | none => disk

def frameCount (seq : Nat) : Nat :=
  match disk.find? seq with
  | some scan => scan.frames.length
  | none => 0

/-- The segment that the writer has open, also while it is being opened. -/
def openSeq (s : LogDir) : Option Nat :=
  match s.writer.phase with
  | .idle => none
  | .opening seq => some seq
  | .writing seq _ => some seq

def write (s : LogDir) : WriterStep → Option LogDir
  | .createSegment =>
    match s.writer.phase with
    | .idle =>
      let seq := s.writer.nextSeq
      some ⟨openFile s.disk seq, { s.writer with nextSeq := seq + 1, phase := .opening seq }⟩
    | _ => none
  | .createFails =>
    match s.writer.phase with
    | .idle => some { s with writer := { s.writer with nextSeq := s.writer.nextSeq + 1 } }
    | _ => none
  | .publish =>
    match s.writer.phase with
    | .opening seq =>
      some { s with writer := { s.writer with
        phase := .writing seq (frameCount s.disk seq), currentSeq := seq + 1 } }
    | _ => none
  | .writeFrame frame =>
    match s.writer.phase with
    | .writing seq _ => some { s with disk := updateFile s.disk seq (· ++ [frame]) }
    | _ => none
  | .finishGroup =>
    match s.writer.phase with
    | .writing seq _ =>
      some { s with writer := { s.writer with
        phase := .writing seq (frameCount s.disk seq) } }
    | _ => none
  | .failGroup keep =>
    match s.writer.phase with
    | .writing seq groupStart =>
      if groupStart ≤ keep then
        some ⟨updateFile s.disk seq (·.take keep),
          { s.writer with phase := .idle, currentSeq := 0 }⟩
      else none
    | _ => none
  | .closeCurrent =>
    match s.writer.phase with
    | .opening _ => none
    | _ => some { s with writer := { s.writer with phase := .idle, currentSeq := 0 } }

/-- Sequence numbers are handed out in order, and the open segment has the last. -/
structure Ordered (s : LogDir) : Prop where
  allocated : ∀ seq scan, s.disk.find? seq = some scan → seq < s.writer.nextSeq
  openLast : ∀ seq, s.openSeq = some seq → seq + 1 = s.writer.nextSeq

/-- How a directory may change while a pass runs: old files that are not open keep their content or
go. -/
structure Evolves (s s' : LogDir) : Prop where
  allocates : s.writer.nextSeq ≤ s'.writer.nextSeq
  opens : ∀ seq, s'.openSeq = some seq → s.openSeq = some seq ∨ s.writer.nextSeq ≤ seq
  files : ∀ seq scan, s'.disk.find? seq = some scan →
    s.disk.find? seq = some scan ∨ s.openSeq = some seq ∨ s.writer.nextSeq ≤ seq

lemma find?_openFile {seq o : Nat} (h : o ≠ seq) :
    (openFile disk seq).find? o = disk.find? o := by
  unfold openFile
  cases disk.find? seq with
  | some scan => rfl
  | none => rw [OrdMap.find?_insert, if_neg h]

lemma find?_updateFile {seq o : Nat} {change : List ScanFrame → List ScanFrame} (h : o ≠ seq) :
    (updateFile disk seq change).find? o = disk.find? o := by
  unfold updateFile
  cases disk.find? seq with
  | some scan => rw [OrdMap.find?_insert, if_neg h]
  | none => rfl

lemma find?_updateFile_self {disk : OrdMap Nat SegmentScan} {seq : Nat} {scan : SegmentScan}
    {change : List ScanFrame → List ScanFrame}
    (h : (updateFile disk seq change).find? seq = some scan) :
    ∃ old, disk.find? seq = some old := by
  unfold updateFile at h
  cases hold : disk.find? seq with
  | some old => exact ⟨old, rfl⟩
  | none => simp [hold] at h

section

variable {s s' : LogDir}

/-- A step that leaves the files alone and opens nothing. -/
theorem evolves_of_disk (hs : s.Ordered) (hd : s'.disk = s.disk)
    (hn : s.writer.nextSeq ≤ s'.writer.nextSeq) (ho : ∀ seq, s'.openSeq = some seq →
      s.openSeq = some seq ∧ s'.writer.nextSeq = s.writer.nextSeq) : s.Evolves s' ∧ s'.Ordered := by
  constructor
  · refine ⟨hn, fun seq h => Or.inl (ho seq h).1, ?_⟩
    intro seq scan h
    exact Or.inl (hd ▸ h)
  · constructor
    · intro seq scan h
      exact (hs.allocated seq scan (hd ▸ h)).trans_le hn
    · intro seq h
      rw [(ho seq h).2]
      exact hs.openLast seq (ho seq h).1

lemma evolves_of_update {seq : Nat} (change : List ScanFrame → List ScanFrame)
    (hs : s.Ordered) (hseq : s.openSeq = some seq) (hd : s'.disk = updateFile s.disk seq change)
    (hn : s'.writer.nextSeq = s.writer.nextSeq) (ho : ∀ o, s'.openSeq = some o → o = seq) :
    s.Evolves s' ∧ s'.Ordered := by
  constructor
  · refine ⟨hn.ge, fun o h => Or.inl (ho o h ▸ hseq), ?_⟩
    intro o scan h
    by_cases hot : o = seq
    · exact Or.inr (Or.inl (hot ▸ hseq))
    · rw [hd, find?_updateFile s.disk hot] at h
      exact Or.inl h
  · constructor
    · intro o scan h
      rw [hn]
      rw [hd] at h
      by_cases hot : o = seq
      · subst hot
        obtain ⟨old, hold⟩ := find?_updateFile_self h
        exact hs.allocated o old hold
      · rw [find?_updateFile s.disk hot] at h
        exact hs.allocated o scan h
    · intro o h
      rw [hn, ho o h]
      exact hs.openLast seq hseq

lemma evolves_of_create (hs : s.Ordered) (hd : s'.disk = openFile s.disk s.writer.nextSeq)
    (hn : s'.writer.nextSeq = s.writer.nextSeq + 1)
    (ho : s'.openSeq = some s.writer.nextSeq) : s.Evolves s' ∧ s'.Ordered := by
  constructor
  · refine ⟨by omega, ?_, ?_⟩
    · intro seq h
      rw [ho] at h
      exact Or.inr (Option.some.inj h).le
    · intro seq scan h
      by_cases hseq : seq = s.writer.nextSeq
      · exact Or.inr (Or.inr hseq.ge)
      · rw [hd, find?_openFile s.disk hseq] at h
        exact Or.inl h
  · constructor
    · intro seq scan h
      by_cases hseq : seq = s.writer.nextSeq
      · omega
      · rw [hd, find?_openFile s.disk hseq] at h
        have hlt := hs.allocated seq scan h
        omega
    · intro seq h
      rw [ho] at h
      rw [hn, Option.some.inj h]

/-- What a step of the writer can do: it touches no file but the open one or a new one. -/
theorem write_spec {step : WriterStep} (h : s.write step = some s') (hs : s.Ordered) :
    s.Evolves s' ∧ s'.Ordered := by
  cases hph : s.writer.phase with
  | idle =>
    cases step <;> simp only [write, hph, reduceCtorEq, Option.some.injEq] at h
    case createSegment =>
        subst h
        exact evolves_of_create hs rfl rfl rfl
    case createFails =>
        subst h
        exact evolves_of_disk hs rfl (Nat.le_succ _) (by simp [openSeq, hph])
    case closeCurrent =>
        subst h
        exact evolves_of_disk hs rfl (le_refl _) (by simp [openSeq])
  | opening seq =>
    cases step <;> simp only [write, hph, reduceCtorEq, Option.some.injEq] at h
    case publish =>
        subst h
        exact evolves_of_disk hs rfl (le_refl _) (by simp [openSeq, hph])
  | writing seq groupStart =>
    have hseq : s.openSeq = some seq := by rw [openSeq, hph]
    cases step <;> simp only [write, hph, reduceCtorEq, Option.some.injEq] at h
    case writeFrame fr =>
        subst h
        exact evolves_of_update (· ++ [fr]) hs hseq rfl rfl (by simp [openSeq, hph, eq_comm])
    case finishGroup =>
        subst h
        exact evolves_of_disk hs rfl (le_refl _) (by simp [openSeq, hph])
    case failGroup keep =>
        split_ifs at h
        cases h
        exact evolves_of_update (·.take keep) hs hseq rfl rfl (by simp [openSeq])
    case closeCurrent =>
        subst h
        exact evolves_of_disk hs rfl (le_refl _) (by simp [openSeq])

lemma evolves_of_erase (hs : s.Ordered) (seq : Nat) :
    s.Evolves { s with disk := s.disk.erase seq } ∧
      Ordered { s with disk := s.disk.erase seq } := by
  have hf : ∀ o scan, (s.disk.erase seq).find? o = some scan → s.disk.find? o = some scan := by
    intro o scan h
    rw [OrdMap.find?_erase] at h
    split_ifs at h
    exact h
  constructor
  · exact ⟨le_refl _, fun _ h => Or.inl h, fun o scan h => Or.inl (hf o scan h)⟩
  · exact ⟨fun o scan h => hs.allocated o scan (hf o scan h), hs.openLast⟩

end

end LogDir

end TeoDB.Storage.Wal
